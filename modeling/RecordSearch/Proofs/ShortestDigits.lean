import RecordSearch.Proofs.Positional

/-!
The text of a floating-point number is read back as that number, so no two numbers share one. The
digits that are written have been tried on the reader beforehand, or they are all the digits that
the number has.

* `Magnitude.nearest?_of_value`: a quotient that a format can hold is rounded to itself;
* `Magnitude.nearestNumeral?_congr`: numerals of one value are read alike;
* `Magnitude.nearestNumeral?_shortest`: the shortest digits read back;
* `Floating.ofText?_text`: so does the text.
-/

namespace RecordSearch

namespace Numeral

/-- The number that the numeral denotes. -/
def value (x : Numeral) : ℚ := x.digits * (10 : ℚ) ^ x.exponent

variable {x y : Numeral}

theorem value_scale (x : Numeral) :
    ((Ratio.ofNat x.digits).scale 10 x.exponent).value = x.value := by
  rw [Ratio.value_scale (by decide), Ratio.value, Ratio.ofNat, value]
  simp

theorem value_eq_zero_iff : x.value = 0 ↔ x.digits = 0 := by
  have hpow : (10 : ℚ) ^ x.exponent ≠ 0 := by positivity
  rw [value, mul_eq_zero, or_iff_left hpow, Nat.cast_eq_zero]

/-- The position of the first digit. -/
def top (x : Numeral) : Int := x.exponent + (Digits.ofNat x.digits).length

theorem pow_length_le {n : Nat} (h : n ≠ 0) : 10 ^ ((Digits.ofNat n).length - 1) ≤ n := by
  rcases Nat.eq_zero_or_pos ((Digits.ofNat n).length - 1) with hzero | hpos
  · rw [hzero]
    exact Nat.pos_of_ne_zero h
  · rw [← Nat.not_lt, ← Digits.length_ofNat_le_iff hpos]
    omega

theorem lt_pow_length (n : Nat) : n < 10 ^ (Digits.ofNat n).length :=
  (Digits.length_ofNat_le_iff (List.length_pos_iff.2 (Digits.ofNat_ne_nil n))).1 le_rfl

theorem pow_top_le (h : x.digits ≠ 0) : (10 : ℚ) ^ (x.top - 1) ≤ x.value := by
  have hlen := List.length_pos_iff.2 (Digits.ofNat_ne_nil x.digits)
  have hsplit : x.top - 1 = ((Digits.ofNat x.digits).length - 1 : Nat) + x.exponent := by
    rw [top]
    omega
  have hdigits : ((10 ^ ((Digits.ofNat x.digits).length - 1) : Nat) : ℚ) ≤ x.digits := by
    exact_mod_cast pow_length_le h
  rw [hsplit, zpow_add₀ (by decide), zpow_natCast, value]
  push_cast at hdigits
  gcongr

theorem value_lt_pow_top (x : Numeral) : x.value < (10 : ℚ) ^ x.top := by
  have hsplit : x.top = ((Digits.ofNat x.digits).length : Int) + x.exponent := by
    rw [top, add_comm]
  have hdigits : (x.digits : ℚ) < (10 ^ (Digits.ofNat x.digits).length : Nat) := by
    exact_mod_cast lt_pow_length x.digits
  rw [hsplit, zpow_add₀ (by decide), zpow_natCast, value]
  push_cast at hdigits
  gcongr

theorem top_congr (hx : x.digits ≠ 0) (hy : y.digits ≠ 0) (h : x.value = y.value) :
    x.top = y.top := by
  have hten : (1 : ℚ) < 10 := by norm_num
  have hle : (10 : ℚ) ^ (x.top - 1) < 10 ^ y.top :=
    (pow_top_le hx).trans_lt (h ▸ value_lt_pow_top y)
  have hge : (10 : ℚ) ^ (y.top - 1) < 10 ^ x.top :=
    (pow_top_le hy).trans_lt (h ▸ value_lt_pow_top x)
  rw [zpow_lt_zpow_iff_right₀ hten] at hle hge
  omega

end Numeral

namespace Magnitude

variable {f : BinaryFormat}

/-- The number that the magnitude stands for. -/
def value (x : Magnitude f) : ℚ := x.mantissa * (2 : ℚ) ^ x.exponent

theorem nearestEven_of_value {r : Ratio} {x : Magnitude f} (hd : 0 < r.den)
    (h : r.value = x.value) : (r.scale 2 (-x.exponent)).nearestEven = x.mantissa := by
  have hvalue : (r.scale 2 (-x.exponent)).value = x.mantissa := by
    rw [Ratio.value_scale_neg, h, value, mul_div_assoc, div_self (by positivity), mul_one]
  have hden := Ratio.den_scale_pos (by decide : 0 < 2) hd (-x.exponent)
  exact le_antisymm (Ratio.nearestEven_le hden hvalue.le) (Ratio.le_nearestEven hden hvalue.ge)

theorem value_lt_pow (x : Magnitude f) : x.value < 2 ^ (f.precision + x.exponent) := by
  have hpow : (0 : ℚ) < 2 ^ x.exponent := by positivity
  have hmantissa : (x.mantissa : ℚ) < (2 ^ f.precision : Nat) := by exact_mod_cast x.fits.1
  push_cast at hmantissa
  rw [value, zpow_add₀ (by decide), zpow_natCast]
  gcongr

theorem le_value {x : Magnitude f} (h : x.mantissa ≠ 0) : (2 : ℚ) ^ f.minExponent ≤ x.value := by
  have hone : (1 : ℚ) ≤ x.mantissa := by exact_mod_cast Nat.pos_of_ne_zero h
  have hpow : (0 : ℚ) < 2 ^ x.exponent := by positivity
  calc (2 : ℚ) ^ f.minExponent ≤ 2 ^ x.exponent := zpow_le_zpow_right₀ (by decide) x.fits.2.1
    _ = 1 * 2 ^ x.exponent := (one_mul _).symm
    _ ≤ x.value := by
      rw [value]
      gcongr

/-- The exponent is the one that the rounding of the value settles on: with the whole precision in
use its logarithm says so, and below that it is the least exponent. -/
theorem exponent_of_value {r : Ratio} {x : Magnitude f} (hp : 0 < f.precision) (hd : 0 < r.den)
    (h : r.value = x.value) :
    (if r.num = 0 then f.minExponent else max f.minExponent (r.log2 - (f.precision - 1 : Nat))) =
      x.exponent := by
  obtain ⟨-, hlow, -, hfull⟩ := BinaryFormat.fits_iff.1 x.fits
  have hpow : (0 : ℚ) < 2 ^ x.exponent := by positivity
  split
  · next hn =>
    have hzero : (x.mantissa : ℚ) * 2 ^ x.exponent = 0 := by
      rw [← value, ← h, Ratio.value, hn, Nat.cast_zero, zero_div]
    have hm : x.mantissa = 0 := by
      exact_mod_cast (mul_eq_zero.1 hzero).resolve_right hpow.ne'
    rw [hm] at hfull
    exact (hfull.resolve_left (by simp)).symm
  · next hn =>
    have hn := Nat.pos_of_ne_zero hn
    have hle : r.log2 < f.precision + x.exponent :=
      (Ratio.log2_lt_iff hn hd).2 (h ▸ x.value_lt_pow)
    rcases hfull with hfull | hmin
    · have hlower : 2 ^ (((f.precision - 1 : Nat) : Int) + x.exponent) ≤ x.value := by
        rw [value, zpow_add₀ (by decide), zpow_natCast]
        have : ((2 ^ (f.precision - 1) : Nat) : ℚ) ≤ x.mantissa := by exact_mod_cast hfull
        push_cast at this
        gcongr
      have hge := (Ratio.le_log2_iff hn hd).2 (h ▸ hlower)
      omega
    · omega

/-- What the format can hold is rounded to itself. -/
theorem nearest?_of_value {r : Ratio} {x : Magnitude f} (hp : 0 < f.precision) (hd : 0 < r.den)
    (h : r.value = x.value) : nearest? f r = some x := by
  simp only [nearest?, exponent_of_value hp hd h, nearestEven_of_value hd h]
  exact dif_pos x.fits

theorem nearestNumeral?_of_zero {x : Numeral} (h : x.digits = 0) :
    nearestNumeral? f x = nearest? f ⟨0, 1⟩ := by
  simp only [nearestNumeral?, h, true_or, if_true]

theorem nearestNumeral?_of_ne_zero {x : Numeral} (h : x.digits ≠ 0) :
    nearestNumeral? f x =
      if x.top < -400 then nearest? f ⟨0, 1⟩
      else if 400 < x.top then none
      else nearest? f ((Ratio.ofNat x.digits).scale 10 x.exponent) := by
  simp only [nearestNumeral?, h, false_or]
  rfl

/-- How a value is spread over digits and exponent makes no difference to the reader. -/
theorem nearestNumeral?_congr {x y : Numeral} (h : x.value = y.value) :
    nearestNumeral? f x = nearestNumeral? f y := by
  have hzero : x.digits = 0 ↔ y.digits = 0 := by
    rw [← Numeral.value_eq_zero_iff, h, Numeral.value_eq_zero_iff]
  by_cases hx : x.digits = 0
  · rw [nearestNumeral?_of_zero hx, nearestNumeral?_of_zero (hzero.1 hx)]
  · have hy : y.digits ≠ 0 := fun hy => hx (hzero.2 hy)
    have hden : ∀ z : Numeral, 0 < ((Ratio.ofNat z.digits).scale 10 z.exponent).den := fun z =>
      Ratio.den_scale_pos (by decide) (by decide : 0 < 1) _
    have hratio : nearest? f ((Ratio.ofNat x.digits).scale 10 x.exponent) =
        nearest? f ((Ratio.ofNat y.digits).scale 10 y.exponent) := by
      apply nearest?_congr (hden x) (hden y)
      rw [Numeral.value_scale, Numeral.value_scale, h]
    rw [nearestNumeral?_of_ne_zero hx, nearestNumeral?_of_ne_zero hy, Numeral.top_congr hx hy h,
      hratio]

theorem value_exactNumeral (x : Magnitude f) : x.exactNumeral.value = x.value := by
  rw [exactNumeral]
  split
  · next h =>
    obtain ⟨n, hn⟩ : ∃ n : Nat, x.exponent = -(n : Int) := ⟨x.exponent.natAbs, by omega⟩
    have hten : (10 : ℚ) ^ n = 2 ^ n * 5 ^ n := by
      rw [← mul_pow]
      norm_num
    simp only [Numeral.value, value, hn, Int.natAbs_neg, Int.natAbs_natCast, Nat.pow_eq, zpow_neg,
      zpow_natCast]
    push_cast
    rw [hten]
    field_simp
  · next h =>
    obtain ⟨n, hn⟩ : ∃ n : Nat, x.exponent = n := ⟨x.exponent.natAbs, by omega⟩
    simp only [Numeral.value, value, hn, Int.natAbs_natCast, Nat.pow_eq, zpow_natCast, zpow_zero,
      mul_one]
    push_cast
    rfl

/-- A number of the 64 bit format lies well within the powers of ten that the reader looks at. -/
theorem top_exactNumeral {x : Magnitude .binary64} (h : x.mantissa ≠ 0) :
    -400 ≤ x.exactNumeral.top ∧ x.exactNumeral.top ≤ 400 := by
  have hhigh : x.exponent ≤ 971 := x.fits.2.2.1
  have hten : (1 : ℚ) < 10 := by norm_num
  have hdigits : x.exactNumeral.digits ≠ 0 := by
    rw [← Numeral.value_eq_zero_iff.ne, value_exactNumeral, value]
    positivity
  -- Three binary places are less than one decimal place.
  have hpow : (2 : ℚ) ^ (1200 : Int) < 10 ^ (400 : Int) := by
    rw [show (1200 : Int) = 3 * 400 from rfl, zpow_mul]
    exact zpow_lt_zpow_left₀ (by decide) (by norm_num) (by norm_num)
  have hupper : x.value < 10 ^ (400 : Int) :=
    calc x.value < 2 ^ (53 + x.exponent) := x.value_lt_pow
      _ ≤ 2 ^ (1200 : Int) := zpow_le_zpow_right₀ (by decide) (by omega)
      _ < 10 ^ (400 : Int) := hpow
  have hlower : (10 : ℚ) ^ (-400 : Int) < x.value :=
    calc (10 : ℚ) ^ (-400 : Int) < 2 ^ (-1200 : Int) := by
          rw [zpow_neg, zpow_neg]
          gcongr
      _ ≤ 2 ^ (-1074 : Int) := zpow_le_zpow_right₀ (by decide) (by decide)
      _ ≤ x.value := le_value h
  rw [← value_exactNumeral] at hupper hlower
  have hle := (zpow_lt_zpow_iff_right₀ hten).1 ((Numeral.pow_top_le hdigits).trans_lt hupper)
  have hge := (zpow_lt_zpow_iff_right₀ hten).1 (hlower.trans (Numeral.value_lt_pow_top _))
  omega

theorem nearestNumeral?_exactNumeral (x : Magnitude .binary64) :
    nearestNumeral? .binary64 x.exactNumeral = some x := by
  have hp : 0 < BinaryFormat.binary64.precision := by decide
  have hzero : x.exactNumeral.digits = 0 ↔ x.mantissa = 0 := by
    have hpow : (2 : ℚ) ^ x.exponent ≠ 0 := by positivity
    rw [← Numeral.value_eq_zero_iff, value_exactNumeral, value, mul_eq_zero, or_iff_left hpow,
      Nat.cast_eq_zero]
  by_cases hm : x.mantissa = 0
  · rw [nearestNumeral?_of_zero (hzero.2 hm)]
    apply nearest?_of_value hp (by decide)
    rw [value, hm, Ratio.value]
    simp
  · obtain ⟨hlow, hhigh⟩ := top_exactNumeral hm
    rw [nearestNumeral?_of_ne_zero (hzero.not.2 hm), if_neg (by omega), if_neg (by omega)]
    apply nearest?_of_value hp (Ratio.den_scale_pos (by decide) (by decide : 0 < 1) _)
    rw [Numeral.value_scale, value_exactNumeral]

theorem nearestNumeral?_of_onGrid? {nearest : Ratio → Nat} {x : Magnitude f} {grid : Int}
    {n : Numeral} (h : x.onGrid? nearest grid = some n) : nearestNumeral? f n = some x := by
  simp only [onGrid?] at h
  split at h
  · next hbelow habove =>
    rw [beq_iff_eq] at hbelow habove
    rw [← Option.some.inj h]
    split
    · exact hbelow
    · exact habove
  · next hbelow _ =>
    rw [← Option.some.inj h]
    exact beq_iff_eq.1 hbelow
  · next _ habove =>
    rw [← Option.some.inj h]
    exact beq_iff_eq.1 habove
  · cases h

/-- **The shortest digits read back.** -/
theorem nearestNumeral?_shortest (nearest : Ratio → Nat) (x : Magnitude .binary64) :
    nearestNumeral? .binary64 (x.shortest nearest) = some x := by
  have hexact := nearestNumeral?_exactNumeral x
  rw [shortest]
  split
  · next hm =>
    rw [← hexact]
    apply nearestNumeral?_congr
    rw [value_exactNumeral, value, hm, Numeral.value]
    simp
  · change nearestNumeral? .binary64 (((List.range 17).findSome? fun (i : Nat) =>
      x.onGrid? nearest (x.ratio.log10 - i)).getD x.exactNumeral) = some x
    cases hgrid : (List.range 17).findSome? fun (i : Nat) =>
        x.onGrid? nearest (x.ratio.log10 - i) with
    | none => exact hexact
    | some n =>
      obtain ⟨i, -, hi⟩ := List.exists_of_findSome?_eq_some hgrid
      exact nearestNumeral?_of_onGrid? hi

end Magnitude

namespace Digits

/-- A run of digits is what is left without the zeros at its end, and these zeros. -/
theorem eq_append_replicate (cs : List Char) :
    ∃ k, cs = (cs.reverse.dropWhile (· == '0')).reverse ++ List.replicate k '0' := by
  have hzeros : cs.reverse.takeWhile (· == '0') =
      List.replicate (cs.reverse.takeWhile (· == '0')).length '0' := by
    rw [List.eq_replicate_iff]
    refine ⟨rfl, ?_⟩
    intro c hc
    have hzero : (c == '0') = true := List.mem_takeWhile_imp (p := (· == '0')) hc
    exact beq_iff_eq.1 hzero
  refine ⟨(cs.reverse.takeWhile (· == '0')).length, ?_⟩
  rw [← List.reverse_replicate, ← hzeros, ← List.reverse_append, List.takeWhile_append_dropWhile,
    List.reverse_reverse]

end Digits

namespace Numeral

/-- The digits without the zeros at the end have the value of the numeral with them. -/
theorem significant_spec (x : Numeral) :
    x.significant.1 ≠ [] ∧ (∀ c ∈ x.significant.1, c.isDigit = true) ∧
      (Digits.value x.significant.1 : ℚ) * 10 ^ x.significant.2 = x.value := by
  obtain ⟨k, hk⟩ := Digits.eq_append_replicate (Digits.ofNat x.digits)
  simp only [significant]
  generalize ((Digits.ofNat x.digits).reverse.dropWhile (· == '0')).reverse = kept at hk ⊢
  have hvalue : x.digits = 10 ^ k * Digits.value kept := by
    rw [← Digits.value_ofNat x.digits, hk, Digits.value_append, Digits.value_replicate_zero,
      List.length_replicate, add_zero]
  have hdigit : ∀ c ∈ kept, c.isDigit = true := by
    intro c hc
    apply Digits.isDigit_of_mem_ofNat (n := x.digits)
    rw [hk]
    exact List.mem_append_left _ hc
  split
  · next hempty =>
    rw [List.isEmpty_iff] at hempty
    rw [hempty] at hvalue
    refine ⟨List.cons_ne_nil _ _, List.all_eq_true.1 rfl, ?_⟩
    rw [value, hvalue]
    simp [Digits.value, Digits.digit]
  · next hempty =>
    rw [List.isEmpty_iff] at hempty
    refine ⟨hempty, hdigit, ?_⟩
    have hlen : ((Digits.ofNat x.digits).length : Int) - kept.length = k := by
      rw [hk, List.length_append, List.length_replicate]
      omega
    rw [hlen, value, hvalue, zpow_add₀ (by decide), zpow_natCast]
    push_cast
    rw [mul_comm ((10 : ℚ) ^ x.exponent), mul_left_comm, ← mul_assoc]

/-- The characters are those of a positional numeral with the value. -/
def IsPositional (text : List Char) (q : ℚ) : Prop :=
  ∃ p : Positional, text = p.chars ∧ (⟨p.value, -p.places.length⟩ : Numeral).value = q

section Plain

variable {cs : List Char} (hne : cs ≠ []) (hdigit : ∀ c ∈ cs, c.isDigit = true) (n : Nat)

include hne hdigit

theorem isPositional_whole :
    IsPositional (cs ++ List.replicate n '0') (Digits.value cs * 10 ^ (n : Int)) := by
  have hall : ∀ c ∈ cs ++ List.replicate n '0', c.isDigit = true := fun c hc =>
    (List.mem_append.1 hc).elim (hdigit c) Digits.isDigit_of_mem_replicate
  refine ⟨⟨cs ++ List.replicate n '0', [], by simp [hne], hall, by simp⟩, ?_, ?_⟩
  · simp [Positional.chars]
  · simp only [Positional.value, value, List.append_nil, Digits.value_append,
      Digits.value_replicate_zero]
    simp [mul_comm]

theorem isPositional_point (hn : 0 < n) (hlt : n < cs.length) :
    IsPositional (cs.take n ++ '.' :: cs.drop n)
      (Digits.value cs * 10 ^ (-((cs.length - n : Nat) : Int))) := by
  have htake : cs.take n ≠ [] := by
    rw [ne_eq, List.take_eq_nil_iff, not_or]
    exact ⟨by omega, hne⟩
  have hdrop : cs.drop n ≠ [] := by
    rw [ne_eq, List.drop_eq_nil_iff]
    omega
  refine ⟨⟨cs.take n, cs.drop n, htake, ?_, ?_⟩, ?_, ?_⟩
  · exact fun c hc => hdigit c (List.mem_of_mem_take hc)
  · exact fun c hc => hdigit c (List.mem_of_mem_drop hc)
  · rw [Positional.chars, if_neg hdrop]
  · simp only [Positional.value, value, List.take_append_drop, List.length_drop]

theorem isPositional_fraction :
    IsPositional ('0' :: '.' :: (List.replicate n '0' ++ cs))
      (Digits.value cs * 10 ^ (-((n + cs.length : Nat) : Int))) := by
  have hall : ∀ c ∈ List.replicate n '0' ++ cs, c.isDigit = true := fun c hc =>
    (List.mem_append.1 hc).elim Digits.isDigit_of_mem_replicate (hdigit c)
  have hzero : Digits.value ['0'] = 0 := rfl
  refine ⟨⟨['0'], List.replicate n '0' ++ cs, by simp, by simp, hall⟩, ?_, ?_⟩
  · simp [Positional.chars, hne]
  · rw [Positional.value, Digits.value_append, Digits.value_append, hzero,
      Digits.value_replicate_zero, value, List.length_append, List.length_replicate]
    simp only [mul_zero, zero_add]

end Plain

/-- Without a power of ten the digits are a positional numeral. -/
theorem isPositional_plain (x : Numeral) : IsPositional x.plain x.value := by
  obtain ⟨hne, hdigit, hvalue⟩ := x.significant_spec
  rw [plain, ← hvalue]
  generalize x.significant = s at hne hdigit
  obtain ⟨cs, e⟩ := s
  simp only at hne hdigit ⊢
  split
  · next he =>
    obtain ⟨n, rfl⟩ := Int.eq_ofNat_of_zero_le he
    exact isPositional_whole hne hdigit n
  · next he =>
    split
    · next hpoint =>
      obtain ⟨n, hn⟩ : ∃ n : Nat, e + cs.length = n := ⟨(e + cs.length).toNat, by omega⟩
      have hlt : n < cs.length := by omega
      have hexp : e = -((cs.length - n : Nat) : Int) := by omega
      rw [hn, Int.toNat_natCast, hexp]
      exact isPositional_point hne hdigit n (by omega) hlt
    · next hpoint =>
      obtain ⟨n, hn⟩ : ∃ n : Nat, -(e + cs.length) = n := ⟨(-(e + cs.length)).toNat, by omega⟩
      have hexp : e = -((n + cs.length : Nat) : Int) := by omega
      rw [hn, Int.toNat_natCast, hexp]
      exact isPositional_fraction hne hdigit n

end Numeral

namespace Floating

/-- **The text of a floating-point number is read back.** -/
theorem ofText?_text (x : Double) : ofText? x.text = some x := by
  cases x with
  | nan => rfl
  | infinity negative => cases negative <;> rfl
  | finite negative m =>
    obtain ⟨p, hp, hvalue⟩ := (m.shortest Ratio.nearestUp).isPositional_plain
    have hread : Magnitude.nearestNumeral? .binary64 ⟨p.value, -p.places.length⟩ = some m := by
      rw [Magnitude.nearestNumeral?_congr hvalue, Magnitude.nearestNumeral?_shortest]
    rw [text, hp]
    change ofText? (String.ofList (signChars negative ++ p.chars)) = _
    rw [ofText?_signChars negative p.digitFirst_chars,
      readUnsigned?_of_digitFirst negative p.digitFirst_chars, p.read?_chars, Option.map_some,
      ofNumeral, hread]
    rfl

theorem text_injective {x y : Double} (h : x.text = y.text) : x = y := by
  have hx := ofText?_text x
  rw [h, ofText?_text y] at hx
  exact (Option.some.inj hx).symm

end Floating

end RecordSearch
