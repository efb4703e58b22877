import RecordSearch.Proofs.ShortestDigits
import Mathlib.Tactic.Ring

/-!
How far a number is from what it is rounded to. Within the range of the full precision the distance
is bounded in proportion to the number, and no whole number lies between the two.

* `Ratio.abs_nearestEven_sub_le`: rounding to a whole number moves by a half at most;
* `Magnitude.abs_value_sub_le`: rounding into a format moves by a part of the number at most;
* `Magnitude.floor_of_nearest?`: the whole part stays, unless a fraction is rounded to a whole number.
-/

namespace RecordSearch

namespace Ratio

variable {r : Ratio}

theorem value_eq_floor_add (hd : 0 < r.den) :
    r.value = r.floor + ((r.num % r.den : Nat) : ℚ) / r.den := by
  have hden : (0 : ℚ) < r.den := by positivity
  have hsplit : (r.num : ℚ) = r.den * (r.num / r.den : Nat) + (r.num % r.den : Nat) := by
    exact_mod_cast (Nat.div_add_mod r.num r.den).symm
  rw [value, floor, hsplit]
  field_simp

theorem abs_nearestEven_sub_le (hd : 0 < r.den) : |(r.nearestEven : ℚ) - r.value| ≤ 1 / 2 := by
  have hden : (0 : ℚ) < r.den := by positivity
  have hlt : ((r.num % r.den : Nat) : ℚ) / r.den < 1 := by
    rw [div_lt_one hden]
    exact_mod_cast Nat.mod_lt _ hd
  have hnonneg : 0 ≤ ((r.num % r.den : Nat) : ℚ) / r.den := by positivity
  have hbelow : ((r.num % r.den : Nat) : ℚ) / r.den ≤ 1 / 2 ↔ 2 * (r.num % r.den) ≤ r.den := by
    rw [div_le_div_iff₀ hden (by norm_num)]
    constructor <;> intro h
    · exact_mod_cast (by linarith : (2 : ℚ) * (r.num % r.den : Nat) ≤ r.den)
    · have h : (2 : ℚ) * (r.num % r.den : Nat) ≤ r.den := by exact_mod_cast h
      linarith
  have habove : 1 / 2 ≤ ((r.num % r.den : Nat) : ℚ) / r.den ↔ r.den ≤ 2 * (r.num % r.den) := by
    rw [div_le_div_iff₀ (by norm_num) hden]
    constructor <;> intro h
    · exact_mod_cast (by linarith : (r.den : ℚ) ≤ 2 * (r.num % r.den : Nat))
    · have h : (r.den : ℚ) ≤ 2 * (r.num % r.den : Nat) := by exact_mod_cast h
      linarith
  rw [value_eq_floor_add hd, floor]
  generalize ((r.num % r.den : Nat) : ℚ) / r.den = fraction at *
  simp only [nearestEven]
  rw [abs_le]
  split
  · next h =>
    have := hbelow.2 h.le
    constructor <;> linarith
  · next h =>
    have hge := habove.2 (by omega)
    split
    · push_cast
      constructor <;> linarith
    · next h' =>
      have hle := hbelow.2 (by omega)
      have hparity : ((r.num / r.den % 2 : Nat) : ℚ) ≤ 1 := by
        exact_mod_cast (by omega : r.num / r.den % 2 ≤ 1)
      have hparity' : (0 : ℚ) ≤ ((r.num / r.den % 2 : Nat) : ℚ) := by positivity
      push_cast
      constructor <;> linarith

theorem floor_eq_iff (hd : 0 < r.den) {n : Nat} :
    r.floor = n ↔ (n : ℚ) ≤ r.value ∧ r.value < (n + 1 : Nat) := by
  rw [le_value_iff hd, ← not_le, le_value_iff hd, not_le, floor]
  constructor
  · rintro rfl
    exact ⟨Nat.div_mul_le_self _ _, Nat.lt_mul_of_div_lt (Nat.lt_succ_self _) hd⟩
  · rintro ⟨hle, hlt⟩
    exact Nat.div_eq_of_lt_le hle hlt

end Ratio

namespace Magnitude

variable {f : BinaryFormat} {r : Ratio} {x : Magnitude f}

theorem value_ratio (x : Magnitude f) : x.ratio.value = x.value := by
  rw [ratio, Ratio.value_scale (by decide), Ratio.value, Ratio.ofNat, value]
  simp

theorem den_ratio_pos (x : Magnitude f) : 0 < x.ratio.den :=
  Ratio.den_scale_pos (by decide) (by decide : 0 < 1) _

/-- A unit beyond the precision is halved with the exponent going up, so the value is the rounded
one in any case. -/
theorem value_of_nearest? (hd : 0 < r.den) (hp : 0 < f.precision) (hx : nearest? f r = some x) :
    x.value = (r.scale 2 (-roundingExponent f r)).nearestEven * 2 ^ roundingExponent f r := by
  have hlow := minExponent_le_roundingExponent (f := f) r
  obtain ⟨hle, hge⟩ := nearestEven_bounds (r := r) hd hp
  rw [nearest?_eq, settle?] at hx
  generalize (r.scale 2 (-roundingExponent f r)).nearestEven = m at *
  generalize roundingExponent f r = e at *
  split at hx
  · rw [← Option.some.inj hx]
    rfl
  · next hnot =>
    split at hx
    · next hfits =>
      have hhigh := (BinaryFormat.fits_iff.1 hfits).2.2.1
      have hm : m = 2 ^ f.precision := by
        refine (Nat.lt_or_eq_of_le hle).resolve_left fun hlt => hnot ?_
        exact BinaryFormat.fits_iff.2 ⟨hlt, hlow, by omega, hge⟩
      have heven : m = m / 2 * 2 := by
        rw [hm, ← Nat.pow_pred_mul hp, Nat.mul_div_cancel _ (by decide)]
      rw [← Option.some.inj hx, value, zpow_add_one₀ (by decide)]
      nth_rewrite 2 [heven]
      push_cast
      ring
    · cases hx

theorem abs_value_sub_le_pow (hd : 0 < r.den) (hp : 0 < f.precision)
    (hx : nearest? f r = some x) : |x.value - r.value| ≤ 2 ^ roundingExponent f r / 2 := by
  rw [value_of_nearest? hd hp hx]
  generalize roundingExponent f r = e
  have hpow : (0 : ℚ) < 2 ^ e := by positivity
  have hden := Ratio.den_scale_pos (by decide : 0 < 2) hd (-e)
  have hround := Ratio.abs_nearestEven_sub_le hden
  rw [Ratio.value_scale_neg] at hround
  generalize ((r.scale 2 (-e)).nearestEven : ℚ) = m at *
  calc |m * 2 ^ e - r.value| = |m - r.value / 2 ^ e| * 2 ^ e := by
        rw [← abs_of_pos hpow, ← abs_mul, abs_of_pos hpow, sub_mul, div_mul_cancel₀ _ hpow.ne']
    _ ≤ 1 / 2 * 2 ^ e := by gcongr
    _ = 2 ^ e / 2 := by ring

/-- With the whole precision in use the distance is a part of the number. -/
theorem abs_value_sub_le (hn : 0 < r.num) (hd : 0 < r.den) (hp : 0 < f.precision)
    (hlog : f.minExponent ≤ r.log2 - (f.precision - 1 : Nat)) (hx : nearest? f r = some x) :
    |x.value - r.value| ≤ r.value / 2 ^ f.precision := by
  have he : roundingExponent f r = r.log2 - (f.precision - 1 : Nat) := by
    rw [roundingExponent, if_neg hn.ne', max_eq_right hlog]
  refine (abs_value_sub_le_pow hd hp hx).trans ?_
  rw [he, le_div_iff₀ (by positivity)]
  have hsum : r.log2 - (f.precision - 1 : Nat) + f.precision = r.log2 + 1 := by omega
  calc (2 : ℚ) ^ (r.log2 - (f.precision - 1 : Nat)) / 2 * 2 ^ f.precision
      = 2 ^ (r.log2 - (f.precision - 1 : Nat) + f.precision) / 2 := by
        rw [zpow_add₀ (by decide), zpow_natCast]
        ring
    _ = 2 ^ r.log2 := by
        rw [hsum, zpow_add_one₀ (by decide)]
        ring
    _ ≤ r.value := Ratio.pow_log2_le hn hd

/-- Whole numbers are on the grid of quotients below the precision, so none lies between such a
quotient and what it is rounded to. -/
theorem whole_le_of_nearest? (hd : 0 < r.den) (hp : 0 < f.precision) (hmin : f.minExponent ≤ 0)
    (hlt : r.value < 2 ^ f.precision) (hx : nearest? f r = some x) (n : Nat) :
    ((n : ℚ) ≤ r.value → (n : ℚ) ≤ x.value) ∧ (r.value ≤ n → x.value ≤ n) := by
  have he : roundingExponent f r ≤ 0 := by
    unfold roundingExponent
    split
    · exact hmin
    · next hn =>
      rw [← zpow_natCast] at hlt
      have hlog := (Ratio.log2_lt_iff (Nat.pos_of_ne_zero hn) hd).2 hlt
      omega
  rw [value_of_nearest? hd hp hx]
  obtain ⟨k, hk⟩ : ∃ k : Nat, roundingExponent f r = -(k : Int) := 
    ⟨(-roundingExponent f r).toNat, by omega⟩
  rw [hk, neg_neg]
  have hpow : (0 : ℚ) < 2 ^ k := by positivity
  have hden := Ratio.den_scale_pos (by decide : 0 < 2) hd k
  have hscale : (r.scale 2 k).value = r.value * 2 ^ k := by
    rw [Ratio.value_scale (by decide), zpow_natCast, Nat.cast_ofNat]
  have hgrid : ((n * 2 ^ k : Nat) : ℚ) = n * 2 ^ k := by push_cast; rfl
  rw [zpow_neg, zpow_natCast, ← div_eq_mul_inv]
  constructor
  · intro h
    rw [le_div_iff₀ hpow, ← hgrid]
    have := Ratio.le_nearestEven hden (n := n * 2 ^ k) (by rw [hgrid, hscale]; gcongr)
    exact_mod_cast this
  · intro h
    rw [div_le_iff₀ hpow, ← hgrid]
    have := Ratio.nearestEven_le hden (n := n * 2 ^ k) (by rw [hgrid, hscale]; gcongr)
    exact_mod_cast this

/-- The whole part of a quotient is kept, unless a fraction is rounded to a whole number. -/
theorem floor_of_nearest? (hd : 0 < r.den) (hp : 0 < f.precision) (hmin : f.minExponent ≤ 0)
    (hlt : r.value < 2 ^ f.precision) (hx : nearest? f r = some x)
    (hwhole : (∃ n : Nat, x.value = n) → ∃ n : Nat, r.value = n) : x.ratio.floor = r.floor := by
  obtain ⟨hle, hlt'⟩ := (Ratio.floor_eq_iff hd).1 rfl
  have hround := whole_le_of_nearest? hd hp hmin hlt hx
  rw [Ratio.floor_eq_iff x.den_ratio_pos, value_ratio]
  refine ⟨(hround _).1 hle, lt_of_le_of_ne ((hround _).2 hlt'.le) ?_⟩
  intro hx'
  obtain ⟨n, hn⟩ := hwhole ⟨_, hx'⟩
  rw [hn, Nat.cast_lt] at hlt'
  have hupper := (hround r.floor).2 (by rw [hn]; exact_mod_cast Nat.le_of_lt_succ hlt')
  rw [hx', Nat.cast_le] at hupper
  omega

end Magnitude

end RecordSearch
