import RecordSearch.Proofs.NearestValue

/-!
Where rounding leaves a binary format. A quotient has no nearest magnitude from half a unit beyond
the greatest one on, for there the tie goes to the even mantissa, which is one that does not fit.

* `Magnitude.nearest?_eq_none_iff`: where that is;
* `Magnitude.value_le_of_nearest?`: rounding does no more than double a quotient;
* `Magnitude.exists_nearest_of_narrower`: the magnitudes of a narrower format are kept.
-/

namespace RecordSearch

namespace Ratio

variable {r : Ratio} {n : Nat}

theorem nearestEven_le_of_lt_half (hd : 0 < r.den) (h : r.value < n + 1 / 2) :
    r.nearestEven ≤ n := by
  have hround := (abs_le.1 (abs_nearestEven_sub_le hd)).2
  have hlt : (r.nearestEven : ℚ) < (n + 1 : Nat) := by
    push_cast
    linarith
  exact Nat.lt_succ_iff.1 (by exact_mod_cast hlt)

/-- A half is rounded away from an odd number. -/
theorem lt_nearestEven_of_odd (hd : 0 < r.den) (hodd : n % 2 = 1) (h : n + 1 / 2 ≤ r.value) :
    n < r.nearestEven := by
  have hnum : (2 * n + 1) * r.den ≤ 2 * r.num := by
    have hd' : (0 : ℚ) < r.den := by exact_mod_cast hd
    rw [value, le_div_iff₀ hd'] at h
    have : ((2 * n + 1) * r.den : ℚ) ≤ 2 * r.num := by linarith
    exact_mod_cast this
  have hle : n ≤ r.num / r.den := by
    rw [Nat.le_div_iff_mul_le hd]
    linarith
  have hsplit := Nat.div_add_mod r.num r.den
  simp only [nearestEven]
  rcases hle.lt_or_eq with hlt | heq
  · -- The quotient has at least one unit more, and rounding takes none away.
    split
    · exact hlt
    · split <;> omega
  · have hhalf : r.den ≤ 2 * (r.num % r.den) := by
      rw [← heq] at hsplit
      linarith
    rw [if_neg (by omega)]
    split <;> omega

theorem num_pos_of_value_pos (h : 0 < r.value) : 0 < r.num := by
  refine Nat.pos_of_ne_zero fun hn => ?_
  rw [value, hn, Nat.cast_zero, zero_div] at h
  exact h.false

theorem nearestEven_of_value_eq (hd : 0 < r.den) (h : r.value = n) : r.nearestEven = n :=
  le_antisymm (nearestEven_le hd h.le) (le_nearestEven hd h.ge)

end Ratio

/-- The greatest finite number of a format. -/
def BinaryFormat.greatest (f : BinaryFormat) : ℚ := (2 ^ f.precision - 1) * 2 ^ f.maxExponent

/-- The greatest mantissa is odd, and half a unit goes beyond it. -/
theorem BinaryFormat.exists_greatest_mantissa {f : BinaryFormat} (hp : 0 < f.precision) :
    ∃ n : Nat, n % 2 = 1 ∧ 2 ^ f.precision = n + 1 ∧
      f.greatest + 2 ^ (f.maxExponent - 1) = (n + 1 / 2) * 2 ^ f.maxExponent := by
  obtain ⟨n, hn⟩ : ∃ n, 2 ^ f.precision = n + 1 :=
    Nat.exists_eq_add_one.2 (Nat.pow_pos (by decide))
  have heven : 2 ^ (f.precision - 1) * 2 = 2 ^ f.precision := Nat.pow_pred_mul hp
  have hn' : (2 : ℚ) ^ f.precision = n + 1 := by exact_mod_cast hn
  refine ⟨n, by omega, hn, ?_⟩
  rw [greatest, hn', zpow_sub_one₀ (by decide)]
  ring

namespace Magnitude

variable {f g : BinaryFormat} {r : Ratio} {n : Nat}

theorem value_nonneg (x : Magnitude f) : 0 ≤ x.value := by
  rw [value]
  positivity

theorem value_le_greatest (x : Magnitude f) : x.value ≤ f.greatest := by
  obtain ⟨hlt, -, hmax, -⟩ := BinaryFormat.fits_iff.1 x.fits
  have hmantissa : (x.mantissa : ℚ) ≤ 2 ^ f.precision - 1 := by
    rw [le_sub_iff_add_le]
    exact_mod_cast hlt
  have hone : (1 : ℚ) ≤ 2 ^ f.precision := one_le_pow₀ (by decide)
  rw [value, BinaryFormat.greatest]
  gcongr
  linarith

/-- From the greatest power of two on, quotients are rounded on a grid that is at best the coarsest
of the format. -/
theorem roundingExponent_of_pow_le (hd : 0 < r.den) (he : f.minExponent < f.maxExponent)
    (h : 2 ^ (f.maxExponent + (f.precision - 1 : Nat)) ≤ r.value) :
    f.maxExponent ≤ r.log2 - (f.precision - 1 : Nat) ∧
      roundingExponent f r = r.log2 - (f.precision - 1 : Nat) := by
  have hn := Ratio.num_pos_of_value_pos (lt_of_lt_of_le (by positivity) h)
  have hlog := (Ratio.le_log2_iff hn hd).2 h
  rw [roundingExponent, if_neg hn.ne']
  omega

/-- Less than half a unit beyond the greatest magnitude quotients are still rounded to one. -/
theorem exists_nearest_of_lt_half (hd : 0 < r.den) (hp : 0 < f.precision)
    (he : f.minExponent < f.maxExponent) (hn : 2 ^ f.precision = n + 1)
    (h : r.value < (n + 1 / 2) * 2 ^ f.maxExponent) : ∃ x, nearest? f r = some x := by
  rcases lt_or_ge r.value (2 ^ (f.maxExponent + (f.precision - 1 : Nat))) with hlt | hge
  · exact exists_nearest hd hp he hlt
  have hpow : (0 : ℚ) < 2 ^ f.maxExponent := by positivity
  have hn' : (2 : ℚ) ^ f.precision = n + 1 := by exact_mod_cast hn
  -- The exponent is the greatest one, and on its grid the mantissa does not grow.
  have hcoarse : roundingExponent f r = f.maxExponent := by
    have hupper : r.value < 2 ^ (f.maxExponent + f.precision) := by
      rw [zpow_add₀ (by decide), zpow_natCast, hn', mul_comm]
      refine h.trans_le ?_
      gcongr
      norm_num
    obtain ⟨hlog, hround⟩ := roundingExponent_of_pow_le hd he hge
    have hnum := Ratio.num_pos_of_value_pos (lt_of_lt_of_le (by positivity) hge)
    have hlog' := (Ratio.log2_lt_iff hnum hd).2 hupper
    omega
  obtain ⟨-, hfull⟩ := nearestEven_bounds (f := f) hd hp
  rw [nearest?_eq, settle?]
  rw [hcoarse] at hfull ⊢
  have hm : (r.scale 2 (-f.maxExponent)).nearestEven ≤ n := by
    apply Ratio.nearestEven_le_of_lt_half (Ratio.den_scale_pos (by decide) hd _)
    rwa [Ratio.value_scale_neg, div_lt_iff₀ hpow]
  exact ⟨_, dif_pos (BinaryFormat.fits_iff.2 ⟨by omega, he.le, le_rfl, hfull⟩)⟩

/-- From half a unit on the tie would go to an even mantissa, and that one does not fit. -/
theorem nearest?_eq_none_of_half_le (hd : 0 < r.den) (hp : 0 < f.precision)
    (he : f.minExponent < f.maxExponent) (hodd : n % 2 = 1) (hn : 2 ^ f.precision = n + 1)
    (h : (n + 1 / 2) * 2 ^ f.maxExponent ≤ r.value) : nearest? f r = none := by
  have hpow : (0 : ℚ) < 2 ^ f.maxExponent := by positivity
  have hn' : (2 : ℚ) ^ f.precision = n + 1 := by exact_mod_cast hn
  have hge : 2 ^ (f.maxExponent + (f.precision - 1 : Nat)) ≤ r.value := by
    have hhalf : (2 : ℚ) ^ (f.precision - 1) * 2 = n + 1 := by
      rw [← hn', pow_sub_one_mul hp.ne']
    have hnonneg : (0 : ℚ) ≤ n := Nat.cast_nonneg n
    rw [zpow_add₀ (by decide), zpow_natCast, mul_comm]
    refine le_trans ?_ h
    gcongr
    linarith
  obtain ⟨hlog, hround⟩ := roundingExponent_of_pow_le hd he hge
  rw [nearest?_eq, settle?, dif_neg, dif_neg]
  · intro hfits
    have := (BinaryFormat.fits_iff.1 hfits).2.2.1
    omega
  · intro hfits
    obtain ⟨hlt, -, hmax, -⟩ := BinaryFormat.fits_iff.1 hfits
    have hcoarse : roundingExponent f r = f.maxExponent := by omega
    have hm : n < (r.scale 2 (-f.maxExponent)).nearestEven := by
      apply Ratio.lt_nearestEven_of_odd (Ratio.den_scale_pos (by decide) hd _) hodd
      rwa [Ratio.value_scale_neg, le_div_iff₀ hpow]
    rw [hcoarse] at hlt
    omega

/-- Nothing is nearest to a quotient from half a unit beyond the greatest magnitude on. -/
theorem nearest?_eq_none_iff (hd : 0 < r.den) (hp : 0 < f.precision)
    (he : f.minExponent < f.maxExponent) :
    nearest? f r = none ↔ f.greatest + 2 ^ (f.maxExponent - 1) ≤ r.value := by
  obtain ⟨n, hodd, hn, hbound⟩ := BinaryFormat.exists_greatest_mantissa hp
  rw [hbound]
  constructor
  · intro hnone
    by_contra hlt
    obtain ⟨x, hx⟩ := exists_nearest_of_lt_half hd hp he hn (not_le.1 hlt)
    rw [hx] at hnone
    cases hnone
  · exact nearest?_eq_none_of_half_le hd hp he hodd hn

/-- Rounding does no more than double a quotient, but for a unit. -/
theorem value_le_of_nearest? {x : Magnitude f} (hd : 0 < r.den) (hp : 0 < f.precision)
    (hmin : f.minExponent ≤ 0) (hx : nearest? f r = some x) : x.value ≤ 2 * r.value + 1 := by
  have hnonneg := r.value_nonneg
  have hround := (abs_le.1 (abs_value_sub_le_pow hd hp hx)).2
  have hpow : (2 : ℚ) ^ roundingExponent f r ≤ r.value + 1 := by
    have hone : (2 : ℚ) ^ f.minExponent ≤ 1 := zpow_le_one_of_nonpos₀ (by decide) hmin
    unfold roundingExponent
    split
    · linarith
    · next hn =>
      rcases Int.le_total f.minExponent (r.log2 - (f.precision - 1 : Nat)) with h | h
      · rw [max_eq_right h]
        have hlog := Ratio.pow_log2_le (Nat.pos_of_ne_zero hn) hd
        have : (2 : ℚ) ^ (r.log2 - (f.precision - 1 : Nat)) ≤ 2 ^ r.log2 :=
          zpow_le_zpow_right₀ (by decide) (by omega)
        linarith
      · rw [max_eq_left h]
        linarith
  linarith

/-- A quotient on the grid that it is rounded on is kept. -/
theorem value_of_nearest?_of_grid {x : Magnitude f} (hd : 0 < r.den) (hp : 0 < f.precision)
    (hx : nearest? f r = some x) (hgrid : r.value = n * 2 ^ roundingExponent f r) :
    x.value = r.value := by
  rw [value_of_nearest? hd hp hx]
  generalize roundingExponent f r = e at *
  rw [Ratio.nearestEven_of_value_eq (Ratio.den_scale_pos (by decide) hd _), hgrid]
  rw [Ratio.value_scale_neg, hgrid, mul_div_cancel_right₀ _ (by positivity)]

/-- More precision and finer exponents make a finer grid. -/
theorem roundingExponent_mono (hmin : f.minExponent ≤ g.minExponent)
    (hprecision : g.precision ≤ f.precision) (r : Ratio) :
    roundingExponent f r ≤ roundingExponent g r := by
  unfold roundingExponent
  split
  · exact hmin
  · omega

/-- A format with finer and greater exponents and no less precision keeps every magnitude. -/
theorem exists_nearest_of_narrower (x : Magnitude g) (hp : 0 < g.precision)
    (he : f.minExponent < f.maxExponent) (hmin : f.minExponent ≤ g.minExponent)
    (hprecision : g.precision ≤ f.precision)
    (hmax : g.precision + g.maxExponent ≤ f.maxExponent + (f.precision - 1 : Nat)) :
    ∃ y : Magnitude f, nearest? f x.ratio = some y ∧ y.value = x.value := by
  have hd := x.den_ratio_pos
  have hlt : x.ratio.value < 2 ^ (f.maxExponent + (f.precision - 1 : Nat)) := by
    have hexponent := (BinaryFormat.fits_iff.1 x.fits).2.2.1
    rw [value_ratio]
    exact x.value_lt_pow.trans_le (zpow_le_zpow_right₀ (by decide) (by omega))
  obtain ⟨y, hy⟩ := exists_nearest hd (hp.trans_le hprecision) he hlt
  refine ⟨y, hy, ?_⟩
  have hfine := roundingExponent_mono hmin hprecision x.ratio
  rw [show roundingExponent g x.ratio = x.exponent from exponent_of_value hp hd x.value_ratio]
    at hfine
  obtain ⟨k, hk⟩ := Int.eq_ofNat_of_zero_le (Int.sub_nonneg.2 hfine)
  rw [← x.value_ratio]
  apply value_of_nearest?_of_grid (n := x.mantissa * 2 ^ k) hd (hp.trans_le hprecision) hy
  rw [value_ratio, value, show x.exponent = k + roundingExponent f x.ratio by omega,
    zpow_add₀ (by decide), zpow_natCast]
  push_cast
  ring

end Magnitude

end RecordSearch
