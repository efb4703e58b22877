import RecordSearch.Number.Width
import RecordSearch.Proofs.Congruence
import RecordSearch.Proofs.NumberText

/-!
What a number is good for once it is read back from its text. An integer is as good as before. A
decimal is too, unless a floating-point number has its digits, for then that number is read: it does
not show the last zeros, and a decimal field takes it with fewer digits than it shows.

* `Number.ofJsonText?_text_of_decimal`: what a decimal is read as;
* `Number.alike_of_units`: decimals of one value compare alike;
* `Number.survives_int`, `Number.survives_uint`, `Number.survives_decimal`: numbers that are as good
  as before;
* `Number.survives_of_ofDouble?`, `Number.survives_of_floating`, `Number.survives_of_text`: where a
  floating-point number does in the place of a decimal.
-/

namespace RecordSearch

/-- The integers in each of their representations. -/
inductive Number.IsInteger : Number → Int → Prop where
  | int (v : Int64) : IsInteger (.int v) v.toInt
  | uint (v : UInt64) : IsInteger (.uint v) v.toNat
  | decimal {d : Decimal} (hscale : d.scale = 0) (hzero : d.unsignZero = d) :
      IsInteger (.decimal d) (Floating.signed d.negative d.mantissa)

theorem Floating.natAbs_signed (negative : Bool) (m : Nat) : (signed negative m).natAbs = m := by
  cases negative with
  | false => rfl
  | true => exact Int.natAbs_neg m

theorem Floating.signed_zero (negative : Bool) : signed negative 0 = 0 := by
  cases negative <;> rfl

/-- A number that is not zero with a sign has the sign that it is made with. -/
theorem Floating.signed_lt_zero {negative : Bool} {m : Nat} (h : negative = true → m ≠ 0) :
    decide (signed negative m < 0) = negative := by
  cases negative with
  | false => simp [signed]
  | true =>
    have := h rfl
    simp only [signed, if_true, decide_eq_true_eq]
    omega

theorem Floating.signed_injective {a b : Bool} {m n : Nat} (h : signed a m = signed b n) :
    m = n ∧ (m ≠ 0 → a = b) := by
  have hsize : m = n := by
    rw [← natAbs_signed a m, h, natAbs_signed]
  refine ⟨hsize, fun hm => ?_⟩
  calc a = decide (signed a m < 0) := (signed_lt_zero fun _ => hm).symm
    _ = decide (signed b n < 0) := by rw [h]
    _ = b := signed_lt_zero fun _ => hsize ▸ hm

/-- The two zeros compare alike. -/
theorem Floating.compare?_of_mantissa_zero {f : BinaryFormat} {x : Floating f} {m : Magnitude f}
    (hm : m.mantissa = 0) (a b : Bool) : x.compare? (finite a m) = x.compare? (finite b m) := by
  have hzero : ∀ negative, signed negative m.units = 0 := by
    intro negative
    rw [Magnitude.units, hm, Nat.zero_mul, signed_zero]
  cases x with
  | nan | infinity => rfl
  | finite c n => rw [compare?, compare?, hzero, hzero]

namespace Decimal

variable {d : Decimal}

theorem unsignZero_eq_self_iff : d.unsignZero = d ↔ (d.negative = true → d.mantissa ≠ 0) := by
  obtain ⟨negative, mantissa, scale, hm, hs⟩ := d
  cases negative <;> simp [unsignZero]

/-- Without places the text of a decimal is that of an integer. -/
theorem text_of_scale_zero (hscale : d.scale = 0) (hzero : d.unsignZero = d) :
    d.text = Digits.intText (Floating.signed d.negative d.mantissa) := by
  have hpadded : Digits.padded 1 d.mantissa = Digits.ofNat d.mantissa := by
    have hlen := List.length_pos_iff.2 (Digits.ofNat_ne_nil d.mantissa)
    rw [Digits.padded, Nat.sub_eq_zero_of_le hlen, List.replicate_zero, List.nil_append]
  have hsign := Floating.signed_lt_zero (unsignZero_eq_self_iff.1 hzero)
  have hdigits : d.text = String.ofList (signChars d.negative ++ Digits.ofNat d.mantissa) := by
    simp [text, hscale, hpadded, signChars]
  rw [hdigits, Digits.intText, Digits.ofInt, Floating.natAbs_signed]
  cases hneg : d.negative with
  | true =>
    rw [hneg] at hsign
    rw [if_pos (of_decide_eq_true hsign)]
    rfl
  | false =>
    rw [hneg] at hsign
    rw [if_neg (of_decide_eq_false hsign)]
    rfl

variable {e : Decimal}

/-- Decimals of one value have the same sign, unless they are zero. -/
theorem negative_eq_of_units (h : d.units = e.units) (hne : d.units ≠ 0) :
    d.negative = e.negative := by
  refine (Floating.signed_injective h).2 fun hzero => hne ?_
  rw [units, hzero, Floating.signed_zero]

theorem value_eq_units (d : Decimal) :
    Ratio.value ⟨d.mantissa, Nat.pow 10 d.scale⟩ = (d.units.natAbs : ℚ) / 10 ^ 28 := by
  have hsplit : (10 : ℚ) ^ 28 = 10 ^ (28 - d.scale) * 10 ^ d.scale := by
    rw [← pow_add, Nat.sub_add_cancel d.scale_le]
  rw [Ratio.value, units, Floating.natAbs_signed, hsplit]
  simp only [Nat.pow_eq]
  push_cast
  rw [mul_comm (d.mantissa : ℚ), mul_div_mul_left _ _ (by positivity)]

/-- Decimals of one value are rounded to doubles that compare alike, as only the signs of zeros can
differ. -/
theorem compare?_toDouble_of_units (h : d.units = e.units) (x : Double) :
    x.compare? d.toDouble = x.compare? e.toDouble := by
  have hpow : ∀ n, 0 < Nat.pow 10 n := fun n => Nat.pow_pos (by decide)
  have hnearest : Magnitude.nearest? .binary64 ⟨d.mantissa, Nat.pow 10 d.scale⟩ =
      Magnitude.nearest? .binary64 ⟨e.mantissa, Nat.pow 10 e.scale⟩ := by
    apply Magnitude.nearest?_congr (hpow _) (hpow _)
    rw [value_eq_units, value_eq_units, h]
  rw [toDouble, toDouble, Floating.ofRatio, Floating.ofRatio, hnearest]
  by_cases hzero : d.units = 0
  · have hm : e.mantissa = 0 := by
      rw [h, units, ← Int.natAbs_eq_zero, Floating.natAbs_signed] at hzero
      exact (Nat.mul_eq_zero.1 hzero).resolve_right (hpow _).ne'
    have hnone : Magnitude.nearest? .binary64 ⟨0, 1⟩ = some ⟨0, -1074, by decide⟩ := by
      decide +kernel
    rw [hm, Magnitude.nearest?_zero, hnone]
    exact Floating.compare?_of_mantissa_zero rfl _ _
  · rw [negative_eq_of_units h hzero]

end Decimal

namespace Number.IsInteger

variable {n : Number} {z : Int}

theorem text_eq (h : n.IsInteger z) (w : Width) : w.text n = Digits.intText z := by
  cases h with
  | int v => cases w <;> rfl
  | uint v =>
    have htext : Digits.natText v.toNat = Digits.intText v.toNat := by
      rw [Digits.natText, Digits.intText, Digits.ofInt, if_neg (by omega), Int.natAbs_natCast]
    cases w <;> exact htext
  | decimal hscale hzero => cases w <;> exact Decimal.text_of_scale_zero hscale hzero

theorem whole?_eq (h : n.IsInteger z) : n.whole? = some z := by
  cases h with
  | int v => rfl
  | uint v => rfl
  | decimal hscale hzero => simp [whole?, Decimal.trunc, hscale]

theorem toDouble_eq (h : n.IsInteger z) : n.toDouble = Floating.ofInt z := by
  cases h with
  | int v => rfl
  | uint v => rfl
  | decimal hscale hzero =>
    have hsign := Floating.signed_lt_zero (Decimal.unsignZero_eq_self_iff.1 hzero)
    simp [toDouble, Decimal.toDouble, Floating.ofInt, hsign, Floating.natAbs_signed, hscale,
      Ratio.ofNat]

theorem toDecimal?_eq (h : n.IsInteger z) : n.toDecimal? = Decimal.ofInt? z := by
  cases h with
  | int v => rfl
  | uint v => rfl
  | decimal hscale hzero =>
    have hsign := Floating.signed_lt_zero (Decimal.unsignZero_eq_self_iff.1 hzero)
    rename_i d
    have hfits : d.mantissa < Nat.pow 2 96 ∧ 0 ≤ 28 := ⟨d.mantissa_lt, Nat.zero_le 28⟩
    rw [Decimal.ofInt?, hsign, Floating.natAbs_signed, Decimal.of?, dif_pos hfits, toDecimal?]
    simp only [← hscale]

theorem coerce?_eq {m : Number} (hm : m.IsInteger z) (hn : n.IsInteger z) (w : Width) :
    w.coerce? m = w.coerce? n := by
  cases w <;> simp only [Width.coerce?, hm.whole?_eq, hn.whole?_eq, hm.toDouble_eq,
    hn.toDouble_eq, hm.toDecimal?_eq, hn.toDecimal?_eq]

end Number.IsInteger

namespace Number

variable {w : Width} {o : Operation} {n : Number}

theorem Alike.refl (n : Number) : n.Alike n := fun _ => rfl

/-- Decimals of one value compare alike, whatever their places. -/
theorem alike_of_units {d e : Decimal} (h : d.units = e.units) : (decimal d).Alike (decimal e) := by
  intro a
  cases a with
  | int | uint | decimal => simp [compare?, compareDecimals, toDecimal?, Decimal.order, h]
  | float x => exact Decimal.compare?_toDouble_of_units h x

/-- What is read from the text of the number serves an operation on a field of the width as the
number itself does: it shows the same digits if fragments are looked for, and else the width takes
both and makes them compare alike. -/
def Survives (w : Width) (o : Operation) (n : Number) : Prop :=
  ∃ m, ofJsonText? n.text = some m ∧
    if o.isTextual then w.text m = w.text n
    else ∀ b, w.coerce? n = some b → ∃ a, w.coerce? m = some a ∧ a.Alike b

theorem survives_of_eq {m : Number} (h : ofJsonText? n.text = some m)
    (htext : w.text m = w.text n) (hcoerce : w.coerce? m = w.coerce? n) : n.Survives w o := by
  refine ⟨m, h, ?_⟩
  split
  · exact htext
  · intro b hb
    exact ⟨b, hcoerce.trans hb, .refl b⟩

theorem IsInteger.survives {m : Number} {z : Int} (hm : m.IsInteger z) (hn : n.IsInteger z)
    (h : ofJsonText? n.text = some m) : n.Survives w o := by
  apply survives_of_eq h
  · rw [hm.text_eq, hn.text_eq]
  · exact hm.coerce?_eq hn w

theorem survives_int (v : Int64) : (int v).Survives w o := by
  apply (IsInteger.int v).survives (.int v)
  rw [ofJsonText?, text, readInt64?_intText v.le_toInt v.toInt_lt, Int64.ofInt_toInt]
  rfl

theorem survives_uint (v : UInt64) : (uint v).Survives w o := by
  have hlt := v.toNat_lt
  have hnat := Digits.toNat?_natText v.toNat
  have hint := readInt64?_of_toInt? (Digits.toInt?_of_toNat? hnat)
  by_cases hv : v.toNat < 2 ^ 63
  · rw [if_pos (by omega)] at hint
    have hvalue := Int64.toInt_ofInt_of_le (n := v.toNat) (by omega) (by omega)
    have hm := IsInteger.int (Int64.ofInt v.toNat)
    rw [hvalue] at hm
    apply hm.survives (.uint v)
    rw [ofJsonText?, text, hint]
    rfl
  · rw [if_neg (by omega)] at hint
    have huint := readUInt64?_of_toNat? hnat
    rw [if_pos hlt, UInt64.ofNat_toNat] at huint
    apply (IsInteger.uint v).survives (.uint v)
    rw [ofJsonText?, text, hint, huint]
    rfl

/-- A decimal is read as an integer of the same value, or as the nearest floating-point number, or
as itself. -/
theorem ofJsonText?_text_of_decimal {d : Decimal} (hzero : d.unsignZero = d) :
    (∃ m z, ofJsonText? d.text = some m ∧ m.IsInteger z ∧ (decimal d).IsInteger z) ∨
      ofJsonText? d.text = some (.float d.toDouble) ∨ ofJsonText? d.text = some (.decimal d) := by
  rw [ofJsonText?]
  cases hi : readInt64? d.text with
  | some i =>
    obtain ⟨hscale, hvalue⟩ := Decimal.parts_of_toInt? (toInt?_of_readInt64? hi)
    refine .inl ⟨.int i, i.toInt, rfl, .int i, ?_⟩
    rw [← hvalue]
    exact .decimal hscale hzero
  | none =>
    cases hu : readUInt64? d.text with
    | some u =>
      have hnat := Digits.toInt?_of_toNat? (toNat?_of_readUInt64? hu)
      obtain ⟨hscale, hvalue⟩ := Decimal.parts_of_toInt? hnat
      refine .inl ⟨.uint u, u.toNat, rfl, .uint u, ?_⟩
      rw [← hvalue]
      exact .decimal hscale hzero
    | none =>
      have hread : readFraction? d.text =
          some (if d.normalize.text = d.toDouble.text then .float d.toDouble else .decimal d) := by
        simp [readFraction?, d.toDouble_text, d.isFinite_toDouble, d.ofText?_text, hzero]
      rw [hread]
      split
      · exact .inr (.inl rfl)
      · exact .inr (.inr rfl)

section Decimals

variable {d : Decimal} (hzero : d.unsignZero = d)

include hzero

/-- A decimal is kept if no floating-point number has its digits. -/
theorem survives_decimal (hfloat : ∀ x, ofJsonText? d.text ≠ some (.float x)) :
    (decimal d).Survives w o := by
  rcases ofJsonText?_text_of_decimal hzero with ⟨m, z, h, hm, hd⟩ | h | h
  · exact hm.survives hd h
  · exact absurd h (hfloat _)
  · exact survives_of_eq h rfl rfl

/-- A decimal that is read as a floating-point number serves as well if the width makes the same of
both. -/
theorem survives_of_coerce? (ho : o.isTextual = false)
    (hsame : ∀ b, w.coerce? (.decimal d) = some b →
      ∃ a, w.coerce? (.float d.toDouble) = some a ∧ a.Alike b) : (decimal d).Survives w o := by
  rcases ofJsonText?_text_of_decimal hzero with ⟨m, z, h, hm, hd⟩ | h | h
  · exact hm.survives hd h
  · refine ⟨_, h, ?_⟩
    rwa [if_neg (by simp [ho])]
  · exact survives_of_eq h rfl rfl

/-- In a floating-point field a decimal is rounded in any case. -/
theorem survives_of_floating (ho : o.isTextual = false) (hw : w = .f32 ∨ w = .f64) :
    (decimal d).Survives w o := by
  apply survives_of_coerce? hzero ho
  intro b hb
  refine ⟨b, ?_, .refl b⟩
  rcases hw with rfl | rfl <;> exact hb

/-- A decimal that its nearest floating-point number gives back, if not with all its places, is
kept by every field. -/
theorem survives_of_ofDouble? {e : Decimal} (ho : o.isTextual = false)
    (he : Decimal.ofDouble? d.toDouble = some e) (hunits : e.units = d.units)
    (hwhole : whole? (.float d.toDouble) = some d.trunc) : (decimal d).Survives w o := by
  apply survives_of_coerce? hzero ho
  intro b hb
  cases w with
  | f32 | f64 => exact ⟨b, hb, .refl b⟩
  | decimal =>
    obtain rfl := Option.some.inj hb
    exact ⟨.decimal e, congrArg (Option.map Number.decimal) he, alike_of_units hunits⟩
  | i8 | i16 | i32 | i64 | u8 | u16 | u32 | u64 =>
    refine ⟨b, ?_, .refl b⟩
    rw [Width.coerce?, hwhole]
    exact hb

/-- A fragment is kept if the floating-point number shows every place of the decimal. -/
theorem survives_of_text (ho : o.isTextual = true)
    (h : w.text (.float d.toDouble) = d.text) : (decimal d).Survives w o := by
  rcases ofJsonText?_text_of_decimal hzero with ⟨m, z, hread, hm, hd⟩ | hread | hread
  · exact hm.survives hd hread
  · refine ⟨_, hread, ?_⟩
    rw [if_pos ho, h]
    cases w <;> rfl
  · exact survives_of_eq hread rfl rfl

end Decimals

end Number

end RecordSearch
