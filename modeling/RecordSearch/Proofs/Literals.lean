import RecordSearch.Proofs.Coercion
import RecordSearch.Proofs.DecimalOfDouble
import RecordSearch.Proofs.Result
import RecordSearch.Wire.Record

/-!
A number and the same digits in quotes, loaded into a number field. The quoted digits are read as a
decimal. The number is read as an integer, or as the floating-point number that shows the same
digits, or else as a decimal too, and only the floating-point number can make a difference: a decimal
field takes it with fewer digits than it shows, and an integer field of 64 bits with its exact value.

* `Decimal.Denotes.trunc_eq`: the whole part of a decimal is what stands before the point;
* `Number.ofJsonText?_text_of_denotes`: what the number is read as;
* `Width.keeps_of_covers`: widths and digits that leave no difference;
* `Value.ofJson_numeral_agrees`: the two loads agree just where the width keeps the decimal;
* `Value.ofJson_numeral_loses_digits`: a decimal field where they do not.
-/

namespace RecordSearch

namespace Positional

variable (negative : Bool) (p : Positional)

def numeral : Numeral := ⟨p.value, -p.places.length⟩

/-- The numeral with its sign. -/
def text : String := String.ofList (signChars negative ++ p.chars)

theorem forall_mem_text {P : Char → Prop} (hdigit : ∀ c : Char, c.isDigit = true → P c)
    (hminus : P '-') (hpoint : P '.') : ∀ c ∈ signChars negative ++ p.chars, P c := by
  intro c hc
  rcases List.mem_append.1 hc with hc | hc
  · cases negative with
    | false => cases hc
    | true => exact List.mem_singleton.1 hc ▸ hminus
  · rcases List.mem_append.1 hc with hc | hc
    · exact hdigit c (p.isDigit_whole c hc)
    · split at hc
      · cases hc
      · rcases List.mem_cons.1 hc with rfl | hc
        · exact hpoint
        · exact hdigit c (p.isDigit_places c hc)

theorem trim_text : Text.trim (p.text negative).toList = (p.text negative).toList := by
  rw [text, String.toList_ofList]
  exact Text.trim_of_not_isBlank
    (p.forall_mem_text negative (fun _ => Text.isBlank_of_isDigit) (by decide) (by decide))

/-- There is no letter in it that could start a power of ten. -/
theorem readScientific?_text :
    Decimal.readScientific? (signChars negative ++ p.chars) = none := by
  have hplain : ∀ c ∈ signChars negative ++ p.chars, (!(c == 'e' || c == 'E')) = true := by
    refine p.forall_mem_text negative ?_ (by decide) (by decide)
    intro c hc
    rw [Bool.not_eq_true', Bool.or_eq_false_iff, beq_eq_false_iff_ne, beq_eq_false_iff_ne]
    constructor <;> rintro rfl <;> exact absurd hc (by decide)
  simp only [Decimal.readScientific?, List.dropWhile_eq_nil_iff.2 hplain]

theorem floatingText?_text {f : BinaryFormat} :
    (Floating.ofText? (p.text negative) : Option (Floating f)) =
      some (Floating.ofNumeral negative p.numeral) := by
  rw [text, Floating.ofText?_signChars negative p.digitFirst_chars,
    Floating.readUnsigned?_of_digitFirst negative p.digitFirst_chars, read?_chars]
  rfl

end Positional

namespace Decimal

variable {negative : Bool} {p : Positional} {d : Decimal}

/-- The decimal has the value of the numeral with the sign. -/
def Denotes (d : Decimal) (negative : Bool) (p : Positional) : Prop :=
  d.units * 10 ^ p.places.length = Floating.signed negative p.value * 10 ^ 28

theorem mul_pow_of_denotes (h : d.Denotes negative p) :
    d.mantissa * 10 ^ p.places.length = p.value * 10 ^ d.scale ∧
      (d.mantissa ≠ 0 → d.negative = negative) := by
  have hsplit : 10 ^ 28 = 10 ^ d.scale * 10 ^ (28 - d.scale) := by
    rw [← Nat.pow_add, Nat.add_sub_cancel' d.scale_le]
  have hsigned : Floating.signed d.negative
        (d.mantissa * 10 ^ p.places.length * 10 ^ (28 - d.scale)) =
      Floating.signed negative (p.value * 10 ^ d.scale * 10 ^ (28 - d.scale)) := by
    rw [Nat.mul_right_comm, Nat.mul_assoc p.value, ← hsplit, Floating.signed_mul d.negative,
      Floating.signed_mul negative]
    exact_mod_cast h
  obtain ⟨hsize, hsign⟩ := Floating.signed_injective hsigned
  have hpow : ∀ n, 0 < 10 ^ n := fun n => Nat.pow_pos (by decide)
  refine ⟨Nat.eq_of_mul_eq_mul_right (hpow _) hsize, fun hne => hsign ?_⟩
  exact Nat.mul_ne_zero (Nat.mul_ne_zero hne (hpow _).ne') (hpow _).ne'

theorem value_of_denotes (h : d.Denotes negative p) : d.numeral.value = p.numeral.value := by
  have hpow : ∀ n, (10 : ℚ) ^ n ≠ 0 := fun n => by positivity
  have hsize : (d.mantissa : ℚ) * 10 ^ p.places.length = p.value * 10 ^ d.scale := by
    exact_mod_cast (mul_pow_of_denotes h).1
  rw [numeral, Positional.numeral, Numeral.value, Numeral.value, zpow_neg, zpow_neg, zpow_natCast,
    zpow_natCast, ← div_eq_mul_inv, ← div_eq_mul_inv, div_eq_div_iff (hpow _) (hpow _), hsize]

/-- **The whole part is what stands before the point.** -/
theorem trunc_of_denotes (h : d.Denotes negative p) :
    d.trunc = Floating.signed negative (Digits.value p.whole) := by
  obtain ⟨hsize, hsign⟩ := mul_pow_of_denotes h
  have hpow : ∀ n, 0 < 10 ^ n := fun n => Nat.pow_pos (by decide)
  have hwhole : d.mantissa / 10 ^ d.scale = Digits.value p.whole :=
    calc d.mantissa / 10 ^ d.scale
        = d.mantissa * 10 ^ p.places.length / (10 ^ d.scale * 10 ^ p.places.length) :=
          (Nat.mul_div_mul_right _ _ (hpow _)).symm
      _ = p.value / 10 ^ p.places.length := by
        rw [hsize, Nat.mul_comm (10 ^ d.scale), Nat.mul_div_mul_right _ _ (hpow _)]
      _ = Digits.value p.whole := by
        rw [Positional.value, Digits.value_append, Nat.mul_add_div (hpow _),
          Nat.div_eq_of_lt (Digits.value_lt p.isDigit_places), Nat.add_zero]
  rw [trunc, Nat.pow_eq, hwhole]
  by_cases hzero : d.mantissa = 0
  · rw [hzero, Nat.zero_div] at hwhole
    rw [← hwhole, Floating.signed_zero, Floating.signed_zero]
  · rw [hsign hzero]

theorem readUnsigned?_of_text (hd : ofText? (p.text negative) = some d) :
    readUnsigned? negative p.chars = some d := by
  rwa [Positional.text, ofText?, String.toList_ofList, p.readScientific?_text, Option.or_none,
    readPlain?_signChars negative p.digitFirst_chars] at hd

/-- Zero is read without a sign. -/
theorem unsignZero_of_text (hd : ofText? (p.text negative) = some d) : d.unsignZero = d := by
  obtain ⟨⟨mantissa, scale⟩, -, hof⟩ := Option.bind_eq_some_iff.1 (readUnsigned?_of_text hd)
  obtain ⟨hfits, hof⟩ := Option.dite_none_right_eq_some.1 hof
  obtain rfl := Option.some.inj hof
  rw [unsignZero_eq_self_iff]
  intro hsign
  exact bne_iff_ne.1 (Bool.and_eq_true_iff.1 hsign).2

/-- Without a point the digits are read as they are. -/
theorem isInteger_of_text (hd : ofText? (p.text negative) = some d) (hplaces : p.places = [])
    (hfit : p.value < 2 ^ 96) : (Number.decimal d).IsInteger (Floating.signed negative p.value) := by
  have hlen : p.places.length ≤ 28 := by simp [hplaces]
  have hread := Positional.decimal?_chars negative hfit hlen
  rw [← Positional.text, hd] at hread
  have hzero := unsignZero_of_text hd
  have hvalue : Floating.signed (negative && p.value != 0) p.value =
      Floating.signed negative p.value := by
    by_cases hnone : p.value = 0
    · rw [hnone, Floating.signed_zero, Floating.signed_zero]
    · rw [bne_iff_ne.2 hnone, Bool.and_true]
  obtain rfl := Option.some.inj hread
  rw [← hvalue]
  exact .decimal (List.length_eq_zero_iff.2 hplaces) hzero

end Decimal

namespace Number

section Reading

variable {negative : Bool} {p : Positional} {d : Decimal}
  (hd : Decimal.ofText? (p.text negative) = some d) (hexact : d.Denotes negative p)

include hd hexact

/-- A fraction is the nearest floating-point number if that shows the digits of the decimal. -/
theorem readFraction?_of_denotes :
    readFraction? (p.text negative) = some (.float d.toDouble) ∧
        d.toDouble.text = d.normalize.text ∨
      readFraction? (p.text negative) = some (.decimal d) := by
  have hzero := Decimal.unsignZero_of_text hd
  obtain ⟨m, -, hm⟩ := d.exists_toDouble
  have hdigits : d.mantissa < 10 ^ 400 := by
    have hbits : d.mantissa < 2 ^ 96 := d.mantissa_lt
    omega
  have hnearest : Magnitude.nearestNumeral? .binary64 p.numeral = some m := by
    rw [← hm, ← Magnitude.nearestNumeral?_places hdigits (d.scale_le.trans (by decide))]
    exact Magnitude.nearestNumeral?_congr (Decimal.value_of_denotes hexact).symm
  have hx : (Floating.ofText? (p.text negative) : Option Double) =
      some (.finite negative m) := by
    rw [p.floatingText?_text, Floating.ofNumeral, hnearest]
    rfl
  have hread : readFraction? (p.text negative) =
      some (if d.normalize.text = (Floating.finite negative m).text then
        .float (.finite negative m) else .decimal d) := by
    simp [readFraction?, hx, hd, Floating.isFinite]
  rw [hread]
  split
  · next htext =>
    have hdouble : Floating.finite negative m = d.toDouble := by
      rw [Floating.eq_toDouble_of_text htext.symm, Decimal.toDouble_normalize hzero]
    rw [← hdouble]
    exact .inl ⟨rfl, htext.symm⟩
  · exact .inr rfl

/-- A number is read as an integer of the value of its digits, or as the nearest floating-point
number if that shows them, or as their decimal. -/
theorem ofJsonText?_of_denotes :
    (∃ m z, ofJsonText? (p.text negative) = some m ∧ m.IsInteger z ∧ (decimal d).IsInteger z) ∨
      ofJsonText? (p.text negative) = some (.float d.toDouble) ∧
        d.toDouble.text = d.normalize.text ∨
      ofJsonText? (p.text negative) = some (.decimal d) := by
  have hinteger : ∀ {z : Int}, Digits.toInt? (p.text negative).toList = some z →
      z.natAbs < 2 ^ 96 → (decimal d).IsInteger z := by
    intro z hz hsize
    rw [Positional.text, String.toList_ofList,
      Digits.toInt?_signChars negative p.digitFirst_chars] at hz
    obtain ⟨n, hn, rfl⟩ := Option.map_eq_some_iff.1 hz
    obtain ⟨hplaces, rfl⟩ := Positional.toNat?_chars_eq_some_iff.1 hn
    rw [Floating.natAbs_signed] at hsize
    exact Decimal.isInteger_of_text hd hplaces hsize
  rw [ofJsonText?]
  cases hi : readInt64? (p.text negative) with
  | some i =>
    have hlow := i.le_toInt
    have hhigh := i.toInt_lt
    exact .inl ⟨.int i, i.toInt, rfl, .int i, hinteger (toInt?_of_readInt64? hi) (by omega)⟩
  | none =>
    cases hu : readUInt64? (p.text negative) with
    | some u =>
      have hlt := u.toNat_lt
      have hz := Digits.toInt?_of_toNat? (toNat?_of_readUInt64? hu)
      exact .inl ⟨.uint u, u.toNat, rfl, .uint u, hinteger hz (by omega)⟩
    | none => exact .inr (readFraction?_of_denotes hd hexact)

theorem eq_toDouble_of_ofJsonText? {x : Double}
    (hx : ofJsonText? (p.text negative) = some (.float x)) :
    x = d.toDouble ∧ d.toDouble.text = d.normalize.text := by
  rcases ofJsonText?_of_denotes hd hexact with ⟨m, z, h, hm, -⟩ | ⟨h, htext⟩ | h
  · obtain rfl := Option.some.inj (h.symm.trans hx)
    cases hm
  · exact ⟨(Number.float.inj (Option.some.inj (h.symm.trans hx))).symm, htext⟩
  · cases h.symm.trans hx

end Reading

theorem beq_self {n : Number} (h : n ≠ .float .nan) : (n == n) = true := by
  rw [beq_iff]
  cases n with
  | int v | uint v => simp [compare?]
  | decimal d => exact congrArg some (Decimal.order_eq_iff.2 rfl)
  | float x =>
    cases x with
    | nan => exact absurd rfl h
    | infinity negative => simp [compare?, compareDoubles, toDouble, Floating.compare?]
    | finite negative m => exact Floating.compare?_self (x := .finite negative m) rfl

end Number

theorem Floating.convert_ne_nan {f g : BinaryFormat} {x : Floating f} (h : x ≠ nan) :
    x.convert g ≠ nan := by
  cases x with
  | nan => exact absurd rfl h
  | infinity negative =>
    intro h
    cases h
  | finite negative m =>
    rw [convert, ofRatio]
    intro h
    cases hm : Magnitude.nearest? g m.ratio <;> rw [hm] at h <;> cases h

namespace Width

/-- The width takes the floating-point number for what it takes the decimal for: a decimal of the
same value, or the same whole part, unless it has room for neither. -/
structure Keeps (w : Width) (d : Decimal) (x : Double) : Prop where
  decimal : w = .decimal → ∃ e, Decimal.ofDouble? x = some e ∧ e.units = d.units
  whole : w.isWhole = true →
    ∃ n, x.trunc? = some n ∧ (n = d.trunc ∨ ¬w.Holds n ∧ ¬w.Holds d.trunc)

/-- Digits that the width keeps even as a floating-point number. For widths up to 32 bits, and for
those that round, these are all. -/
structure Covers (w : Width) (d : Decimal) : Prop where
  decimal : w = .decimal → Decimal.ShortDigits d.normalize.mantissa
  whole : w = .i64 ∨ w = .u64 → d.trunc.natAbs < 2 ^ 53

/-- A decimal field holds the very value, and an integer field what stands before the point. -/
structure IsExact (w : Width) (negative : Bool) (p : Positional) (n : Number) : Prop where
  decimal : w = .decimal → ∃ e, n = .decimal e ∧ e.Denotes negative p
  whole : w.isWhole = true → n.whole? = some (Floating.signed negative (Digits.value p.whole))

theorem isWhole_cases (w : Width) :
    w.isWhole = true ∨ w = .decimal ∨ w = .f32 ∨ w = .f64 := by
  cases w <;> decide

variable {w : Width} {negative : Bool} {p : Positional} {d : Decimal}

/-- What is made of the decimal is exact. -/
theorem isExact_of_coerce? {n : Number} (hexact : d.Denotes negative p)
    (h : w.coerce? (.decimal d) = some n) : w.IsExact negative p n := by
  constructor
  · rintro rfl
    exact ⟨d, (Option.some.inj h).symm, hexact⟩
  · intro hw
    by_cases hin : w.Holds d.trunc
    · obtain ⟨m, hm, hwhole⟩ := exists_coerce?_of_holds (n := .decimal d) rfl hin
      obtain rfl := Option.some.inj (hm.symm.trans h)
      rw [hwhole, Decimal.trunc_of_denotes hexact]
    · rw [coerce?_of_not_holds hw rfl hin] at h
      cases h

theorem beq_self_of_coerce? {n : Number} (h : w.coerce? (.decimal d) = some n) :
    (n == n) = true := by
  obtain ⟨m, hm, -⟩ := d.exists_toDouble
  have hdouble : d.toDouble ≠ .nan := by
    rw [hm]
    intro h
    cases h
  apply Number.beq_self
  rintro rfl
  cases w with
  | f32 =>
    have hsingle := Number.float.inj (Option.some.inj h)
    exact Floating.convert_ne_nan (Floating.convert_ne_nan hdouble) hsingle
  | f64 => exact hdouble (Number.float.inj (Option.some.inj h))
  | decimal => cases h
  | i8 | i16 | i32 | i64 | u8 | u16 | u32 | u64 =>
    obtain ⟨-, h⟩ := Option.ite_none_right_eq_some.1 h
    cases h

/-- What the width makes of two numbers: both are refused, or both are taken and come out equal and
exact. -/
def TakesAlike (w : Width) (negative : Bool) (p : Positional) (a b : Option Number) : Prop :=
  a = none ∧ b = none ∨
    ∃ m n, a = some m ∧ b = some n ∧ (m == n) = true ∧ w.IsExact negative p m ∧
      w.IsExact negative p n

theorem takesAlike_of_eq (hexact : d.Denotes negative p) {m : Number}
    (h : w.coerce? m = w.coerce? (.decimal d)) :
    w.TakesAlike negative p (w.coerce? m) (w.coerce? (.decimal d)) := by
  rw [h]
  cases hd : w.coerce? (.decimal d) with
  | none => exact .inl ⟨rfl, rfl⟩
  | some n =>
    have hn := isExact_of_coerce? hexact hd
    exact .inr ⟨n, n, rfl, rfl, beq_self_of_coerce? hd, hn, hn⟩

theorem natAbs_trunc_lt (d : Decimal) : d.trunc.natAbs < 2 ^ 96 := by
  rw [Decimal.trunc, Floating.natAbs_signed]
  exact (Nat.div_le_self _ _).trans_lt d.mantissa_lt

theorem takesAlike_decimal_iff (hexact : d.Denotes negative p) {x : Double} :
    Width.decimal.TakesAlike negative p (coerce? .decimal (.float x))
        (coerce? .decimal (.decimal d)) ↔
      ∃ e, Decimal.ofDouble? x = some e ∧ e.units = d.units := by
  constructor
  · rintro (⟨-, h⟩ | ⟨a, b, ha, hb, hbeq, -⟩)
    · cases h
    · obtain ⟨e, he, rfl⟩ := Option.map_eq_some_iff.1 ha
      obtain rfl := Option.some.inj hb
      exact ⟨e, he, Decimal.order_eq_iff.1 (Option.some.inj (Number.beq_iff.1 hbeq))⟩
  · rintro ⟨e, he, hunits⟩
    have hbeq : (Number.decimal e == .decimal d) = true :=
      Number.beq_iff.2 (congrArg some (Decimal.order_eq_iff.2 hunits))
    have hsame : e.Denotes negative p := by
      rwa [Decimal.Denotes, hunits]
    have hkept : IsExact .decimal negative p (.decimal e) :=
      ⟨fun _ => ⟨e, rfl, hsame⟩, fun hw => by cases hw⟩
    exact .inr ⟨.decimal e, .decimal d, congrArg (Option.map Number.decimal) he, rfl, hbeq, hkept,
      isExact_of_coerce? hexact rfl⟩

/-- Both are taken with the one whole part, or both are out of range. -/
theorem takesAlike_whole_iff (hexact : d.Denotes negative p) (hw : w.isWhole = true) {x : Double}
    {n : Int} (hn : x.trunc? = some n) :
    w.TakesAlike negative p (w.coerce? (.float x)) (w.coerce? (.decimal d)) ↔
      n = d.trunc ∨ ¬w.Holds n ∧ ¬w.Holds d.trunc := by
  constructor
  · intro h
    by_cases hfloat : w.Holds n
    · obtain ⟨a, ha, hwhole⟩ := exists_coerce?_float_of_holds hn hfloat
      rcases h with ⟨h, -⟩ | ⟨b, -, hb, -, -, hexactly, -⟩
      · cases h.symm.trans ha
      · obtain rfl := Option.some.inj (ha.symm.trans hb)
        left
        rw [Decimal.trunc_of_denotes hexact]
        exact Option.some.inj (hwhole.symm.trans (hexactly.whole hw))
    · refine .inr ⟨hfloat, fun hin => ?_⟩
      obtain ⟨b, hb, -⟩ := exists_coerce?_of_holds (n := .decimal d) rfl hin
      rcases h with ⟨-, h⟩ | ⟨a, -, ha, -⟩
      · cases h.symm.trans hb
      · cases (coerce?_float_of_not_holds hn hw hfloat).symm.trans ha
  · rintro (rfl | ⟨hfloat, hdecimal⟩)
    · apply takesAlike_of_eq hexact
      apply coerce?_congr hw
      rw [whole?_float hn, Number.clampWhole_of_lt ((natAbs_trunc_lt d).trans (by decide))]
      rfl
    · exact .inl ⟨coerce?_float_of_not_holds hn hw hfloat, coerce?_of_not_holds hw rfl hdecimal⟩

/-- **The floating-point number makes no difference just where the width keeps the decimal.** -/
theorem takesAlike_float_iff (hexact : d.Denotes negative p) :
    w.TakesAlike negative p (w.coerce? (.float d.toDouble)) (w.coerce? (.decimal d)) ↔
      w.Keeps d d.toDouble := by
  rcases isWhole_cases w with hw | rfl | rfl | rfl
  · obtain ⟨m, hm, -⟩ := d.exists_toDouble
    have hn : d.toDouble.trunc? = some (Floating.signed d.negative m.ratio.floor) := by
      rw [hm, Floating.trunc?]
    rw [takesAlike_whole_iff hexact hw hn]
    constructor
    · intro h
      refine ⟨?_, fun _ => ⟨_, hn, h⟩⟩
      rintro rfl
      cases hw
    · intro h
      obtain ⟨n, hn', h⟩ := h.whole hw
      obtain rfl := Option.some.inj (hn.symm.trans hn')
      exact h
  · rw [takesAlike_decimal_iff hexact]
    exact ⟨fun h => ⟨fun _ => h, fun hw => by cases hw⟩, fun h => h.decimal rfl⟩
  · refine iff_of_true (takesAlike_of_eq hexact rfl) ?_
    constructor <;> intro hw <;> cases hw
  · refine iff_of_true (takesAlike_of_eq hexact rfl) ?_
    constructor <;> intro hw <;> cases hw

/-- Large whole parts are out of the narrow ranges, and up to 53 bits the whole part is kept. -/
theorem keeps_of_covers (hzero : d.unsignZero = d) (htext : d.toDouble.text = d.normalize.text)
    (h : w.Covers d) : w.Keeps d d.toDouble := by
  constructor
  · intro hw
    obtain ⟨e, he, hunits⟩ := Decimal.exists_ofDouble?_of_short (h.decimal hw)
    rw [Decimal.toDouble_normalize hzero] at he
    refine ⟨e, he, hunits.trans ?_⟩
    exact Decimal.units_eq_of_value (Decimal.negative_normalize hzero) d.value_normalize
  · intro hw
    by_cases hlarge : 2 ^ 53 ≤ d.numeral.value
    · obtain ⟨n, hn, hfloat, hdecimal⟩ := Floating.exists_trunc?_of_large hlarge
      have hnarrow : ¬(w = .i64 ∨ w = .u64) := fun hwide => by
        have := h.whole hwide
        omega
      refine ⟨n, hn, .inr ⟨fun hin => ?_, fun hin => ?_⟩⟩
      · have := natAbs_lt_of_narrow hnarrow hin
        omega
      · have := natAbs_lt_of_narrow hnarrow hin
        omega
    · exact ⟨_, Floating.trunc?_of_text hzero htext (not_le.1 hlarge), .inl rfl⟩

end Width

namespace Value

variable {field : String} {type : FieldType} {w : Width} {negative : Bool} {p : Positional}
  {d : Decimal}

theorem toOption_ofJson_number (field : String) (htype : type.unwrap = .number w) (t : String) :
    (ofJson field type (.number t)).toOption =
      ((Number.ofJsonText? t).bind w.coerce?).map .number := by
  simp only [ofJson, htype, ofScalar?]
  cases (Number.ofJsonText? t).bind w.coerce? <;> rfl

theorem toOption_ofJson_string (field : String) (htype : type.unwrap = .number w) {t : String}
    (htrim : Text.trim t.toList = t.toList) :
    (ofJson field type (.string t)).toOption =
      ((Decimal.ofText? t).bind fun d => w.coerce? (.decimal d)).map .number := by
  simp only [ofJson, htype, ofScalar?, htrim, String.ofList_toList]
  cases (Decimal.ofText? t).bind fun d => w.coerce? (.decimal d) <;> rfl

theorem ofJson_number_of_coerce? {n : Number} {t : String} (htype : type.unwrap = .number w)
    (h : (Number.ofJsonText? t).bind w.coerce? = some n) :
    ofJson field type (.number t) = .ok (.number n) := by
  apply ok_of_toOption
  rw [toOption_ofJson_number field htype, h, Option.map_some]

theorem ofJson_string_of_coerce? {n : Number} (htype : type.unwrap = .number w)
    (hd : Decimal.ofText? (p.text negative) = some d) (h : w.coerce? (.decimal d) = some n) :
    ofJson field type (.string (p.text negative)) = .ok (.number n) := by
  apply ok_of_toOption
  rw [toOption_ofJson_string field htype (p.trim_text negative), hd, Option.bind_some, h,
    Option.map_some]

/-- Two loads that both fail, or both give numbers that are equal and exact. -/
def LoadAlike (w : Width) (negative : Bool) (p : Positional) (a b : Except WireError Value) :
    Prop :=
  (∃ e f, a = .error e ∧ b = .error f) ∨
    ∃ m n, a = .ok (.number m) ∧ b = .ok (.number n) ∧ (m == n) = true ∧
      w.IsExact negative p m ∧ w.IsExact negative p n

theorem loadAlike_iff {a b : Except WireError Value} {x y : Option Number}
    (ha : a.toOption = x.map .number) (hb : b.toOption = y.map .number) :
    LoadAlike w negative p a b ↔ w.TakesAlike negative p x y := by
  cases a <;> cases b <;> cases x <;> cases y <;> cases ha <;> cases hb <;>
    simp [LoadAlike, Width.TakesAlike]

/-- Only a number that is read as a floating-point number can be taken otherwise than its decimal. -/
theorem takesAlike_bind_iff (hd : Decimal.ofText? (p.text negative) = some d)
    (hexact : d.Denotes negative p) :
    w.TakesAlike negative p ((Number.ofJsonText? (p.text negative)).bind w.coerce?)
        (w.coerce? (.decimal d)) ↔
      ∀ x, Number.ofJsonText? (p.text negative) = some (.float x) → w.Keeps d x := by
  have hfloat : ∀ {x}, Number.ofJsonText? (p.text negative) = some (.float x) →
      x = d.toDouble := fun hx => (Number.eq_toDouble_of_ofJsonText? hd hexact hx).1
  rcases Number.ofJsonText?_of_denotes hd hexact with ⟨m, z, h, hm, hz⟩ | ⟨h, -⟩ | h
  · rw [h, Option.bind_some]
    refine iff_of_true (Width.takesAlike_of_eq hexact (hm.coerce?_eq hz w)) fun x hx => ?_
    obtain rfl := Option.some.inj hx
    cases hm
  · rw [h, Option.bind_some, Width.takesAlike_float_iff hexact]
    constructor
    · intro hkeeps x hx
      rwa [hfloat (h.trans hx)]
    · intro hkeeps
      exact hkeeps _ rfl
  · rw [h, Option.bind_some]
    refine iff_of_true (Width.takesAlike_of_eq hexact (m := .decimal d) rfl) fun x hx => ?_
    cases hx

/-- **A number and its digits in quotes load alike** unless a floating-point number has its digits
and the width does not keep the decimal that it stands for. -/
theorem ofJson_numeral_agrees (field : String) {type : FieldType} {w : Width} {negative : Bool}
    {p : Positional} {d : Decimal} (htype : type.unwrap = .number w)
    (hd : Decimal.ofText? (p.text negative) = some d) (hexact : d.Denotes negative p) :
    (w.Covers d → LoadAlike w negative p (ofJson field type (.number (p.text negative)))
      (ofJson field type (.string (p.text negative)))) ∧
    (LoadAlike w negative p (ofJson field type (.number (p.text negative)))
        (ofJson field type (.string (p.text negative))) ↔
      ∀ x, Number.ofJsonText? (p.text negative) = some (.float x) → w.Keeps d x) := by
  have hnumber := toOption_ofJson_number field htype (p.text negative)
  have hstring := toOption_ofJson_string field htype (p.trim_text negative)
  rw [hd, Option.bind_some] at hstring
  rw [loadAlike_iff hnumber hstring, takesAlike_bind_iff hd hexact]
  refine ⟨fun hcovers x hx => ?_, .rfl⟩
  obtain ⟨rfl, htext⟩ := Number.eq_toDouble_of_ofJsonText? hd hexact hx
  exact Width.keeps_of_covers (Decimal.unsignZero_of_text hd) htext hcovers

/-- Two places in a decimal field, and a fraction in an integer field of 64 bits. -/
theorem ofJson_numeral_agrees_cents :
    let p : Positional := ⟨['1', '2'], ['5', '0'], by decide, List.all_eq_true.1 rfl,
      List.all_eq_true.1 rfl⟩
    let d : Decimal := ⟨true, 1250, 2, by decide, by decide⟩
    Decimal.ofText? (p.text true) = some d ∧ d.Denotes true p ∧
      LoadAlike .decimal true p (ofJson "Price" (.optional (.number .decimal)) (.number "-12.50"))
        (ofJson "Price" (.optional (.number .decimal)) (.string "-12.50")) ∧
      LoadAlike .i64 true p (ofJson "Size" (.number .i64) (.number "-12.50"))
        (ofJson "Size" (.number .i64) (.string "-12.50")) := by
  intro p d
  have hd : Decimal.ofText? (p.text true) = some d :=
    Positional.decimal?_chars true (by decide) (by decide)
  have hexact : d.Denotes true p := by
    rw [Decimal.Denotes]
    decide
  have htext : p.text true = "-12.50" := by decide
  have hdecimal : Width.Covers .decimal d := by
    refine ⟨fun _ => ?_, fun hw => by simp at hw⟩
    rw [Decimal.ShortDigits]
    decide
  have hwhole : Width.Covers .i64 d := by
    refine ⟨fun hw => ?_, fun _ => by decide⟩
    cases hw
  refine ⟨hd, hexact, ?_, ?_⟩
  · rw [← htext]
    exact (ofJson_numeral_agrees "Price" rfl hd hexact).1 hdecimal
  · rw [← htext]
    exact (ofJson_numeral_agrees "Size" rfl hd hexact).1 hwhole

/-- Seven digits that a decimal field takes for sixteen, and an integer beyond 53 bits with a point. -/
theorem ofJson_numeral_loses_digits :
    (∃ p : Positional, ∃ d, p.text false = "4096.029" ∧
      Decimal.ofText? (p.text false) = some d ∧ d.Denotes false p ∧
        ∃ m n, ofJson "Price" (.number .decimal) (.number (p.text false)) = .ok (.number m) ∧
          ofJson "Price" (.number .decimal) (.string (p.text false)) = .ok (.number n) ∧
          (m == n) = false) ∧
    ∃ p : Positional, ∃ d, p.text false = "4611686018427388000.0" ∧
      Decimal.ofText? (p.text false) = some d ∧ d.Denotes false p ∧
        ∃ m n, ofJson "Size" (.number .i64) (.number (p.text false)) = .ok (.number m) ∧
          ofJson "Size" (.number .i64) (.string (p.text false)) = .ok (.number n) ∧
          (m == n) = false := by
  constructor
  · have hd := Positional.decimal?_chars (p := ⟨['4', '0', '9', '6'], ['0', '2', '9'], by decide,
      List.all_eq_true.1 rfl, List.all_eq_true.1 rfl⟩) false (by decide) (by decide)
    refine ⟨_, _, by decide, hd, ?_, .decimal ⟨false, 4096029000000001, 12, by decide, by decide⟩,
      _, ?_, ofJson_string_of_coerce? rfl hd rfl, by decide⟩
    · rw [Decimal.Denotes]
      decide
    · exact ofJson_number_of_coerce? rfl (by decide +kernel)
  · have hd := Positional.decimal?_chars (p := ⟨"4611686018427388000".toList, ['0'], by decide,
      List.all_eq_true.1 rfl, List.all_eq_true.1 rfl⟩) false (by decide) (by decide)
    refine ⟨_, _, by decide, hd, ?_, .int 4611686018427387904, .int 4611686018427388000, ?_,
      ofJson_string_of_coerce? rfl hd (by decide), by decide⟩
    · rw [Decimal.Denotes]
      decide
    · exact ofJson_number_of_coerce? rfl (by decide +kernel)

end Value

end RecordSearch
