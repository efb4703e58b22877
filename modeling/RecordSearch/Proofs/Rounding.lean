import RecordSearch.Number.Binary
import Mathlib.Algebra.Order.Field.Power
import Mathlib.Algebra.Order.Field.Rat
import Mathlib.Tactic.FieldSimp
import Mathlib.Tactic.Linarith
import Mathlib.Tactic.Positivity

/-!
Quotients as rational numbers, and the rounding of one into a binary format.

* `Ratio.value_scale`: scaling multiplies by a power of the base;
* `Ratio.log2_lt_iff` and `Ratio.le_log2_iff`: the logarithm is the one that is meant;
* `Magnitude.nearest?_congr`: equal quotients are rounded alike;
* `Magnitude.nearestEven_bounds`: on the grid of a quotient its mantissa uses the whole precision;
* `Magnitude.exists_nearest`: a quotient below the greatest power of two has a nearest magnitude.
-/

namespace RecordSearch

namespace Ratio

/-- The quotient itself. -/
def value (r : Ratio) : ℚ := r.num / r.den

variable {r : Ratio}

theorem value_nonneg (r : Ratio) : 0 ≤ r.value := by
  rw [value]
  positivity

theorem value_scale {base : Nat} (hb : 0 < base) (r : Ratio) (e : Int) :
    (r.scale base e).value = r.value * (base : ℚ) ^ e := by
  have hb' : (base : ℚ) ≠ 0 := by positivity
  rw [scale]
  split
  · next h =>
    obtain ⟨n, rfl⟩ : ∃ n : Nat, e = -(n : Int) := ⟨e.natAbs, by omega⟩
    simp only [value, Int.natAbs_neg, Int.natAbs_natCast, Nat.pow_eq, zpow_neg, zpow_natCast]
    push_cast
    rw [div_mul_eq_div_div, div_eq_mul_inv _ ((base : ℚ) ^ n)]
  · next h =>
    obtain ⟨n, rfl⟩ : ∃ n : Nat, e = n := ⟨e.natAbs, by omega⟩
    simp only [value, Int.natAbs_natCast, Nat.pow_eq, zpow_natCast]
    push_cast
    rw [mul_div_right_comm]

theorem den_scale_pos {base : Nat} (hb : 0 < base) (hd : 0 < r.den) (e : Int) :
    0 < (r.scale base e).den := by
  rw [scale]
  split
  · exact Nat.mul_pos hd (Nat.pow_pos hb)
  · exact hd

theorem le_value_iff (hd : 0 < r.den) {n : Nat} : (n : ℚ) ≤ r.value ↔ n * r.den ≤ r.num := by
  rw [value, le_div_iff₀ (by positivity)]
  exact_mod_cast Iff.rfl

theorem value_le_iff (hd : 0 < r.den) {n : Nat} : r.value ≤ n ↔ r.num ≤ n * r.den := by
  rw [value, div_le_iff₀ (by positivity)]
  exact_mod_cast Iff.rfl

theorem isAtLeastPow_iff {base : Nat} (hb : 0 < base) (hd : 0 < r.den) (e : Int) :
    r.isAtLeastPow base e = true ↔ (base : ℚ) ^ e ≤ r.value := by
  have hpow : (0 : ℚ) < (base : ℚ) ^ e := by positivity
  have hden := den_scale_pos (r := r) hb hd (-e)
  rw [isAtLeastPow, decide_eq_true_eq, floor, Nat.le_div_iff_mul_le hden,
    ← le_value_iff hden, value_scale hb, zpow_neg, Nat.cast_one, ← div_eq_mul_inv,
    le_div_iff₀ hpow, one_mul]

theorem pow_log2_le_cast {n : Nat} (h : 0 < n) : (2 : ℚ) ^ (n.log2 : Int) ≤ n := by
  rw [zpow_natCast]
  exact_mod_cast Nat.log2_self_le (Nat.pos_iff_ne_zero.1 h)

theorem cast_lt_pow_log2 (n : Nat) : (n : ℚ) < 2 ^ ((n.log2 : Int) + 1) := by
  have h := Nat.lt_log2_self (n := n)
  rw [← Nat.cast_one, ← Nat.cast_add, zpow_natCast]
  exact_mod_cast h

/-- From the powers below and above numerator and denominator the power below the quotient is known
up to one. -/
theorem value_bounds_of {b : ℚ} (hb : 0 < b) (hd : 0 < r.den) {i j : Int}
    (hnum : b ^ i ≤ r.num ∧ r.num < b ^ (i + 1)) (hden : b ^ j ≤ r.den ∧ r.den < b ^ (j + 1)) :
    b ^ (i - j - 1) ≤ r.value ∧ r.value < b ^ (i - j + 1) := by
  have hpos : (0 : ℚ) < r.den := by positivity
  constructor
  · rw [value, le_div_iff₀ hpos]
    calc b ^ (i - j - 1) * r.den ≤ b ^ (i - j - 1) * b ^ (j + 1) := by
          gcongr
          exact hden.2.le
      _ = b ^ i := by rw [← zpow_add₀ hb.ne']; congr 1; omega
      _ ≤ r.num := hnum.1
  · rw [value, div_lt_iff₀ hpos]
    calc (r.num : ℚ) < b ^ (i + 1) := hnum.2
      _ = b ^ (i - j + 1) * b ^ j := by rw [← zpow_add₀ hb.ne']; congr 1; omega
      _ ≤ b ^ (i - j + 1) * r.den := by
          gcongr
          exact hden.1

/-- The difference of the two logarithms is off by one at most, on either side. -/
theorem value_bounds (hn : 0 < r.num) (hd : 0 < r.den) :
    (2 : ℚ) ^ ((r.num.log2 : Int) - r.den.log2 - 1) ≤ r.value ∧
      r.value < 2 ^ ((r.num.log2 : Int) - r.den.log2 + 1) :=
  value_bounds_of (by decide) hd ⟨pow_log2_le_cast hn, cast_lt_pow_log2 _⟩
    ⟨pow_log2_le_cast hd, cast_lt_pow_log2 _⟩

theorem pow_log2_le (hn : 0 < r.num) (hd : 0 < r.den) : (2 : ℚ) ^ r.log2 ≤ r.value := by
  rw [log2]
  split
  · next h => exact (isAtLeastPow_iff (by decide) hd _).1 h
  · exact (value_bounds hn hd).1

theorem lt_pow_log2 (hn : 0 < r.num) (hd : 0 < r.den) : r.value < 2 ^ (r.log2 + 1) := by
  rw [log2]
  split
  · exact (value_bounds hn hd).2
  · next h =>
    rw [Bool.not_eq_true, ← Bool.not_eq_true, isAtLeastPow_iff (by decide) hd, not_le] at h
    rwa [sub_add_cancel]

theorem log2_lt_iff (hn : 0 < r.num) (hd : 0 < r.den) {k : Int} :
    r.log2 < k ↔ r.value < 2 ^ k := by
  have two : (1 : ℚ) < 2 := by decide
  constructor
  · intro h
    exact (lt_pow_log2 hn hd).trans_le (zpow_le_zpow_right₀ two.le h)
  · intro h
    exact (zpow_lt_zpow_iff_right₀ two).1 ((pow_log2_le hn hd).trans_lt h)

theorem le_log2_iff (hn : 0 < r.num) (hd : 0 < r.den) {k : Int} :
    k ≤ r.log2 ↔ 2 ^ k ≤ r.value := by
  rw [← not_lt, log2_lt_iff hn hd, not_lt]

theorem nearestEven_le (hd : 0 < r.den) {n : Nat} (h : r.value ≤ n) : r.nearestEven ≤ n := by
  rw [value_le_iff hd] at h
  have hq : r.num / r.den ≤ n := Nat.div_le_of_le_mul (by rwa [Nat.mul_comm])
  have hsplit := Nat.div_add_mod r.num r.den
  -- With the quotient at the bound there is nothing left to round.
  have hmod : r.num / r.den = n → r.num % r.den = 0 := by
    intro heq
    rw [heq, Nat.mul_comm] at hsplit
    omega
  simp only [nearestEven]
  split
  · exact hq
  · split <;> rcases Nat.lt_or_eq_of_le hq with hlt | heq
    · exact hlt
    · have := hmod heq
      omega
    · omega
    · have := hmod heq
      omega

theorem le_nearestEven (hd : 0 < r.den) {n : Nat} (h : n ≤ r.value) : n ≤ r.nearestEven := by
  rw [le_value_iff hd] at h
  have hq : n ≤ r.num / r.den := (Nat.le_div_iff_mul_le hd).2 h
  simp only [nearestEven]
  split
  · exact hq
  · split <;> omega

theorem cross_mul_of_value {s : Ratio} (hr : 0 < r.den) (hs : 0 < s.den) (h : r.value = s.value) :
    r.num * s.den = s.num * r.den := by
  rw [value, value, div_eq_div_iff (by positivity) (by positivity)] at h
  exact_mod_cast h

theorem nearestEven_mul {n d c : Nat} (hc : 0 < c) :
    nearestEven ⟨n * c, d * c⟩ = nearestEven ⟨n, d⟩ := by
  have hscale : ∀ a b : Nat, 2 * (a * c) < b * c ↔ 2 * a < b := by
    intro a b
    rw [← Nat.mul_assoc, Nat.mul_lt_mul_right hc]
  have hscale' : ∀ a b : Nat, b * c < 2 * (a * c) ↔ b < 2 * a := by
    intro a b
    rw [← Nat.mul_assoc, Nat.mul_lt_mul_right hc]
  simp only [nearestEven, Nat.mul_div_mul_right _ _ hc, Nat.mul_mod_mul_right, hscale, hscale']

theorem nearestEven_congr {s : Ratio} (hr : 0 < r.den) (hs : 0 < s.den) (h : r.value = s.value) :
    r.nearestEven = s.nearestEven := by
  calc r.nearestEven = nearestEven ⟨r.num * s.den, r.den * s.den⟩ := (nearestEven_mul hs).symm
    _ = nearestEven ⟨s.num * r.den, s.den * r.den⟩ := by
      rw [cross_mul_of_value hr hs h, Nat.mul_comm r.den]
    _ = s.nearestEven := nearestEven_mul hr

/-- The logarithm is the only one that is meant. -/
theorem log2_congr {s : Ratio} (hr : 0 < r.num ∧ 0 < r.den) (hs : 0 < s.num ∧ 0 < s.den)
    (h : r.value = s.value) : r.log2 = s.log2 := by
  refine eq_of_forall_le_iff fun k => ?_
  rw [le_log2_iff hr.1 hr.2, le_log2_iff hs.1 hs.2, h]

theorem value_scale_neg (r : Ratio) (e : Int) : (r.scale 2 (-e)).value = r.value / 2 ^ e := by
  rw [value_scale (by decide), Nat.cast_ofNat, zpow_neg, ← div_eq_mul_inv]

theorem pow_eq_zpow_div (p : Nat) (e : Int) :
    ((2 ^ p : Nat) : ℚ) = (2 : ℚ) ^ (e + p) / (2 : ℚ) ^ e := by
  rw [zpow_add₀ (by decide), mul_div_cancel_left₀ _ (by positivity), zpow_natCast, Nat.cast_pow,
    Nat.cast_ofNat]

theorem nearestEven_scale_le (hd : 0 < r.den) {p : Nat} {e : Int} (h : r.value ≤ 2 ^ (e + p)) :
    (r.scale 2 (-e)).nearestEven ≤ 2 ^ p := by
  apply nearestEven_le (den_scale_pos (by decide) hd _)
  rw [value_scale_neg, pow_eq_zpow_div p e]
  gcongr

theorem le_nearestEven_scale (hd : 0 < r.den) {p : Nat} {e : Int} (h : 2 ^ (e + p) ≤ r.value) :
    2 ^ p ≤ (r.scale 2 (-e)).nearestEven := by
  apply le_nearestEven (den_scale_pos (by decide) hd _)
  rw [value_scale_neg, pow_eq_zpow_div p e]
  gcongr

end Ratio

theorem BinaryFormat.fits_iff {f : BinaryFormat} {m : Nat} {e : Int} :
    f.Fits m e ↔ m < 2 ^ f.precision ∧ f.minExponent ≤ e ∧ e ≤ f.maxExponent ∧
      (2 ^ (f.precision - 1) ≤ m ∨ e = f.minExponent) :=
  Iff.rfl

namespace Magnitude

variable {f : BinaryFormat}

theorem fits_half {p : Nat} {e : Int} (hp : 0 < f.precision) (hlow : f.minExponent ≤ e)
    (hhigh : e ≤ f.maxExponent) (h : p = 2 ^ f.precision) : f.Fits (p / 2) e := by
  have hhalf : p / 2 = 2 ^ (f.precision - 1) := by
    rw [h, ← Nat.pow_div hp (by decide), Nat.pow_one]
  have hlt : p / 2 < 2 ^ f.precision := by
    rw [hhalf]
    exact Nat.pow_lt_pow_right (by decide) (by omega)
  exact BinaryFormat.fits_iff.2 ⟨hlt, hlow, hhigh, .inl hhalf.ge⟩

/-- The exponent of the grid on which a quotient is rounded. -/
def roundingExponent (f : BinaryFormat) (r : Ratio) : Int :=
  if r.num = 0 then f.minExponent else max f.minExponent (r.log2 - (f.precision - 1 : Nat))

theorem minExponent_le_roundingExponent (r : Ratio) : f.minExponent ≤ roundingExponent f r := by
  unfold roundingExponent
  split
  · exact Int.le_refl _
  · exact Int.le_max_left _ _

/-- The magnitude of a rounded mantissa, which is halved if it has outgrown the precision. -/
def settle? (f : BinaryFormat) (m : Nat) (e : Int) : Option (Magnitude f) :=
  if h : f.Fits m e then some ⟨m, e, h⟩
  else if h : f.Fits (m / 2) (e + 1) then some ⟨m / 2, e + 1, h⟩
  else none

theorem nearest?_eq (f : BinaryFormat) (r : Ratio) : nearest? f r =
    settle? f (r.scale 2 (-roundingExponent f r)).nearestEven (roundingExponent f r) :=
  rfl

theorem roundingExponent_congr {r s : Ratio} (hr : 0 < r.den) (hs : 0 < s.den)
    (h : r.value = s.value) : roundingExponent f r = roundingExponent f s := by
  have hcross := Ratio.cross_mul_of_value hr hs h
  unfold roundingExponent
  by_cases hn : r.num = 0
  · rw [hn, Nat.zero_mul] at hcross
    rw [if_pos hn, if_pos ((Nat.mul_eq_zero.1 hcross.symm).resolve_right hr.ne')]
  · have hn' : s.num ≠ 0 := by
      intro hn'
      rw [hn', Nat.zero_mul] at hcross
      exact hn ((Nat.mul_eq_zero.1 hcross).resolve_right hs.ne')
    rw [if_neg hn, if_neg hn', Ratio.log2_congr ⟨Nat.pos_of_ne_zero hn, hr⟩
      ⟨Nat.pos_of_ne_zero hn', hs⟩ h]

/-- Rounding depends on the value of a quotient alone. -/
theorem nearest?_congr {r s : Ratio} (hr : 0 < r.den) (hs : 0 < s.den) (h : r.value = s.value) :
    nearest? f r = nearest? f s := by
  have hround : ∀ e, (r.scale 2 e).nearestEven = (s.scale 2 e).nearestEven := by
    intro e
    apply Ratio.nearestEven_congr (Ratio.den_scale_pos (by decide) hr e)
      (Ratio.den_scale_pos (by decide) hs e)
    rw [Ratio.value_scale (by decide), Ratio.value_scale (by decide), h]
  rw [nearest?_eq, nearest?_eq, roundingExponent_congr hr hs h, hround]

/-- A quotient takes at most one unit beyond the precision on its grid, and no less than the whole
precision unless the grid is the finest one. -/
theorem nearestEven_bounds {r : Ratio} (hd : 0 < r.den) (hp : 0 < f.precision) :
    (r.scale 2 (-roundingExponent f r)).nearestEven ≤ 2 ^ f.precision ∧
      (2 ^ (f.precision - 1) ≤ (r.scale 2 (-roundingExponent f r)).nearestEven ∨
        roundingExponent f r = f.minExponent) := by
  have two : (1 : ℚ) < 2 := by decide
  by_cases hn : r.num = 0
  · have hzero : (r.scale 2 (-roundingExponent f r)).nearestEven ≤ 0 := by
      apply Ratio.nearestEven_le (Ratio.den_scale_pos (by decide) hd _)
      rw [Ratio.value_scale_neg, Ratio.value, hn]
      simp
    exact ⟨Nat.le_trans hzero (Nat.zero_le _), .inr (if_pos hn)⟩
  · have he : roundingExponent f r = max f.minExponent (r.log2 - (f.precision - 1 : Nat)) :=
      if_neg hn
    generalize roundingExponent f r = e at *
    have hn := Nat.pos_of_ne_zero hn
    constructor
    · apply Ratio.nearestEven_scale_le hd
      exact (Ratio.lt_pow_log2 hn hd).le.trans (zpow_le_zpow_right₀ two.le (by omega))
    · rcases Int.le_total (r.log2 - (f.precision - 1 : Nat)) f.minExponent with hle | hle
      · right
        omega
      · left
        apply Ratio.le_nearestEven_scale hd
        exact (zpow_le_zpow_right₀ two.le (by omega)).trans (Ratio.pow_log2_le hn hd)

/-- Below a power of two that the format has, rounding up never leaves the format. -/
theorem exists_nearest {r : Ratio} (hd : 0 < r.den) (hp : 0 < f.precision)
    (he : f.minExponent < f.maxExponent)
    (h : r.value < 2 ^ (f.maxExponent + (f.precision - 1 : Nat))) :
    ∃ x, nearest? f r = some x := by
  have hlow := minExponent_le_roundingExponent (f := f) r
  have hhigh : roundingExponent f r < f.maxExponent := by
    unfold roundingExponent
    split
    · exact he
    · next hn =>
      have hlog := (Ratio.log2_lt_iff (Nat.pos_of_ne_zero hn) hd).2 h
      omega
  obtain ⟨hle, hge⟩ := nearestEven_bounds hd hp
  rw [nearest?_eq, settle?]
  rcases Nat.lt_or_eq_of_le hle with hlt | heq
  · exact ⟨_, dif_pos (BinaryFormat.fits_iff.2 ⟨hlt, hlow, hhigh.le, hge⟩)⟩
  · split
    · exact ⟨_, rfl⟩
    · have hlow' : f.minExponent ≤ roundingExponent f r + 1 := by omega
      exact ⟨_, dif_pos (fits_half hp hlow' hhigh heq)⟩

end Magnitude

end RecordSearch
