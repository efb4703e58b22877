import RecordSearch.Proofs.Positional

/-!
Numbers read back from their own text. A decimal shows every place that it has, so each reader of
numbers finds all of its digits again.

* `Decimal.text_eq`: the text of a decimal is a positional numeral;
* `Decimal.ofText?_text`, `Decimal.toDouble_text`: what the two readers of fractions make of it;
* `Number.exists_ofJsonText`: a number that is no floating-point number comes back as an equal one,
  if not in the same representation.
-/

namespace RecordSearch

namespace Decimal

/-- The digits that the text shows, with as many behind the point as there are places. -/
def positional (d : Decimal) : Positional :=
  let cs := Digits.padded (d.scale + 1) d.mantissa
  { whole := cs.take (cs.length - d.scale)
    places := cs.drop (cs.length - d.scale)
    whole_ne_nil := by
      have hlen : d.scale + 1 ≤ cs.length := Digits.le_length_padded _ _
      intro h
      have := congrArg List.length h
      rw [List.length_take, List.length_nil] at this
      omega
    isDigit_whole := fun _ h => Digits.isDigit_of_mem_padded (List.mem_of_mem_take h)
    isDigit_places := fun _ h => Digits.isDigit_of_mem_padded (List.mem_of_mem_drop h) }

theorem length_places (d : Decimal) : d.positional.places.length = d.scale := by
  have := Digits.le_length_padded (d.scale + 1) d.mantissa
  rw [positional, List.length_drop]
  omega

theorem value_positional (d : Decimal) : d.positional.value = d.mantissa := by
  rw [Positional.value, positional, List.take_append_drop, Digits.value_padded]

theorem text_eq (d : Decimal) :
    d.text = String.ofList (signChars d.negative ++ d.positional.chars) := by
  have hplaces : d.positional.places = [] ↔ d.scale = 0 := by
    rw [← d.length_places, List.length_eq_zero_iff]
  simp only [text, signChars, Positional.chars, hplaces, List.append_assoc]
  rfl

/-- Also the zeros at the end and the sign of zero are seen in the text. -/
theorem text_injective {a b : Decimal} (h : a.text = b.text) : a = b := by
  rw [text_eq, text_eq, String.ofList_inj] at h
  obtain ⟨hsign, hchars⟩ := signChars_append_inj a.positional.digitFirst_chars
    b.positional.digitFirst_chars h
  obtain ⟨hvalue, hscale⟩ := Positional.value_and_length_of_chars hchars
  rw [value_positional, value_positional] at hvalue
  rw [length_places, length_places] at hscale
  cases a
  cases b
  obtain rfl := hsign
  obtain rfl := hvalue
  obtain rfl := hscale
  rfl

/-- Zero without its sign. -/
def unsignZero (d : Decimal) : Decimal := { d with negative := d.negative && d.mantissa != 0 }

theorem units_unsignZero (d : Decimal) : d.unsignZero.units = d.units := by
  simp only [unsignZero, units, Floating.signed]
  by_cases hm : d.mantissa = 0
  · simp [hm]
  · simp [bne_iff_ne.2 hm]

theorem ofText?_text (d : Decimal) : ofText? d.text = some d.unsignZero := by
  have hfit : d.positional.value < 2 ^ 96 := d.value_positional ▸ d.mantissa_lt
  have hlen : d.positional.places.length ≤ 28 := d.length_places ▸ d.scale_le
  rw [text_eq, Positional.decimal?_chars d.negative hfit hlen]
  simp only [value_positional, length_places]
  rfl

theorem toDouble_eq (d : Decimal) :
    d.toDouble = Floating.ofRatio d.negative ⟨d.mantissa, 10 ^ d.scale⟩ :=
  rfl

/-- The same digits make the same quotient, so both ways round alike. -/
theorem toDouble_text (d : Decimal) :
    (Floating.ofText? d.text : Option Double) = some d.toDouble := by
  have hm : d.mantissa < 2 ^ 96 := d.mantissa_lt
  have hs := d.scale_le
  have hfit : d.positional.value < 10 ^ 400 := by
    rw [value_positional]
    omega
  have hlen : d.positional.places.length ≤ 400 := by
    rw [length_places]
    omega
  rw [text_eq, Positional.floating?_chars d.negative hfit hlen, value_positional, length_places,
    toDouble_eq]

theorem isFinite_toDouble (d : Decimal) : d.toDouble.isFinite = true := by
  have hpow : 0 < 10 ^ d.scale := Nat.pow_pos (by decide)
  have hvalue : Ratio.value ⟨d.mantissa, 10 ^ d.scale⟩ ≤ (2 ^ 96 : Nat) := by
    rw [Ratio.value_le_iff hpow]
    exact (Nat.le_of_lt d.mantissa_lt).trans (Nat.le_mul_of_pos_right _ hpow)
  obtain ⟨x, hx⟩ := Magnitude.exists_nearest (f := .binary64) hpow (by decide) (by decide) <| by
    apply hvalue.trans_lt
    rw [Nat.cast_pow, Nat.cast_ofNat, ← zpow_natCast]
    exact zpow_lt_zpow_right₀ (by decide) (by decide)
  rw [toDouble_eq, Floating.ofRatio, hx]
  rfl

/-- The text of an integer is that of a decimal without places. -/
theorem parts_of_toInt? {d : Decimal} {n : Int} (h : Digits.toInt? d.text.toList = some n) :
    d.scale = 0 ∧ Floating.signed d.negative d.mantissa = n := by
  rw [text_eq, String.toList_ofList,
    Digits.toInt?_signChars d.negative d.positional.digitFirst_chars] at h
  obtain ⟨m, hm, rfl⟩ := Option.map_eq_some_iff.1 h
  obtain ⟨hplaces, hvalue⟩ := Positional.toNat?_chars_eq_some_iff.1 hm
  rw [← d.length_places, hplaces, ← d.value_positional, hvalue]
  exact ⟨rfl, rfl⟩

theorem units_of_toInt? {d : Decimal} {n : Int} (h : Digits.toInt? d.text.toList = some n) :
    d.units = n * 10 ^ 28 := by
  obtain ⟨hscale, hvalue⟩ := parts_of_toInt? h
  rw [units, hscale, Floating.signed_mul, hvalue]
  rfl

theorem order_eq_iff {a b : Decimal} : a.order b = .eq ↔ a.units = b.units := by
  rw [order, compare_eq_iff_eq]

theorem exists_ofInt {n : Int} (h : n.natAbs < 2 ^ 96) :
    ∃ d, ofInt? n = some d ∧ d.units = n * 10 ^ 28 := by
  refine ⟨_, dif_pos ⟨h, Nat.zero_le 28⟩, ?_⟩
  rw [units, Floating.signed_mul, Floating.signed_natAbs]
  rfl

end Decimal

theorem Floating.compare?_self {f : BinaryFormat} {x : Floating f} (h : x.isFinite = true) :
    x.compare? x = some .eq := by
  cases x with
  | finite negative m => simp [compare?]
  | nan => cases h
  | infinity negative => cases h

namespace Number

theorem compareDecimals_ofInt {a b : Number} {n : Int} {d : Decimal}
    (ha : a.toDecimal? = Decimal.ofInt? n) (hn : n.natAbs < 2 ^ 96)
    (hb : b.toDecimal? = some d) (hd : d.units = n * 10 ^ 28) :
    compareDecimals a b = some .eq := by
  obtain ⟨e, he, hunits⟩ := Decimal.exists_ofInt hn
  rw [compareDecimals, ha, hb, he]
  exact congrArg some (Decimal.order_eq_iff.2 (hunits.trans hd.symm))

/-- An unsigned integer is read as a signed one as far as there is one. -/
theorem exists_ofJsonText_uint (v : UInt64) :
    ∃ m, ofJsonText? (Digits.natText v.toNat) = some m ∧ m.compare? (.uint v) = some .eq := by
  have hlt := v.toNat_lt
  have hnat := Digits.toNat?_natText v.toNat
  have hint := readInt64?_of_toInt? (Digits.toInt?_of_toNat? hnat)
  by_cases hv : v.toNat < 2 ^ 63
  · rw [if_pos (by omega)] at hint
    refine ⟨.int (Int64.ofInt v.toNat), by rw [ofJsonText?, hint]; rfl, ?_⟩
    have hvalue := Int64.toInt_ofInt_of_le (n := v.toNat) (by omega) (by omega)
    simp [compare?, compareWhole, whole?, hvalue]
  · rw [if_neg (by omega)] at hint
    have huint := readUInt64?_of_toNat? hnat
    rw [if_pos hlt, UInt64.ofNat_toNat] at huint
    exact ⟨.uint v, by rw [ofJsonText?, hint, huint]; rfl, by simp [compare?]⟩

/-- A decimal is read as an integer if it has no places and is in range, and else as the nearest
floating-point number if that one has the same digits. -/
theorem exists_ofJsonText_decimal (d : Decimal) :
    ∃ m, ofJsonText? d.text = some m ∧ m.compare? (.decimal d) = some .eq := by
  rw [ofJsonText?]
  cases hi : readInt64? d.text with
  | some i =>
    have hd := Decimal.units_of_toInt? (toInt?_of_readInt64? hi)
    have hlow := i.le_toInt
    have hhigh := i.toInt_lt
    exact ⟨.int i, rfl, compareDecimals_ofInt rfl (by omega) rfl hd⟩
  | none =>
    cases hu : readUInt64? d.text with
    | some u =>
      have hd := Decimal.units_of_toInt? (Digits.toInt?_of_toNat? (toNat?_of_readUInt64? hu))
      have hlt := u.toNat_lt
      exact ⟨.uint u, rfl, compareDecimals_ofInt (n := u.toNat) rfl (by omega) rfl hd⟩
    | none =>
      have hread : readFraction? d.text =
          some (if d.unsignZero.normalize.text = d.toDouble.text then .float d.toDouble
            else .decimal d.unsignZero) := by
        simp [readFraction?, d.toDouble_text, d.isFinite_toDouble, d.ofText?_text]
      refine ⟨_, hread, ?_⟩
      split
      · exact Floating.compare?_self d.isFinite_toDouble
      · exact congrArg some (Decimal.order_eq_iff.2 d.units_unsignZero)

/-- **A number comes back as an equal one** from its text, unless it is a floating-point number. -/
theorem exists_ofJsonText {n : Number} (h : ∀ x, n ≠ .float x) :
    ∃ m, ofJsonText? n.text = some m ∧ (m == n) = true := by
  simp only [beq_iff]
  cases n with
  | int v =>
    refine ⟨.int v, ?_, by simp [compare?]⟩
    rw [ofJsonText?, text, readInt64?_intText v.le_toInt v.toInt_lt, Int64.ofInt_toInt]
    rfl
  | uint v => exact exists_ofJsonText_uint v
  | float x => exact absurd rfl (h x)
  | decimal d => exact exists_ofJsonText_decimal d

end Number

end RecordSearch
