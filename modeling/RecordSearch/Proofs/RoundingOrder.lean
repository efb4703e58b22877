import RecordSearch.Proofs.Overflow

/-!
Rounding keeps the order. Of two quotients the greater is never rounded to the smaller magnitude,
and magnitudes stand in the order of their multiples of the least one.

* `Ratio.nearestEven_mono`: rounding to a whole number keeps the order;
* `Magnitude.roundingExponent_mono_value`: a greater quotient has no finer grid;
* `Magnitude.units_le_of_nearest?`: rounding into a format keeps the order.
-/

namespace RecordSearch

namespace Ratio

variable {r s : Ratio}

theorem nearestEven_mono (hr : 0 < r.den) (hs : 0 < s.den) (h : r.value ≤ s.value) :
    r.nearestEven ≤ s.nearestEven := by
  by_contra hlt
  have hstep : s.nearestEven + 1 ≤ r.nearestEven := not_le.1 hlt
  have habove := (abs_le.1 (abs_nearestEven_sub_le hr)).2
  have hbelow := (abs_le.1 (abs_nearestEven_sub_le hs)).1
  have hstep' : (s.nearestEven : ℚ) + 1 ≤ r.nearestEven := by exact_mod_cast hstep
  -- Both lie half way between the two whole numbers, and there is one way to round that.
  have heq : r.value = s.value := by linarith
  rw [nearestEven_congr hr hs heq] at hstep
  omega

theorem log2_mono (hn : 0 < r.num) (hr : 0 < r.den) (hs : 0 < s.den) (h : r.value ≤ s.value) :
    r.log2 ≤ s.log2 := by
  have hlow := pow_log2_le hn hr
  have hpos : 0 < s.value := (lt_of_lt_of_le (by positivity) hlow).trans_le h
  exact (le_log2_iff (num_pos_of_value_pos hpos) hs).2 (hlow.trans h)

end Ratio

namespace Magnitude

variable {f : BinaryFormat} {r s : Ratio} {x y : Magnitude f}

theorem roundingExponent_mono_value (hr : 0 < r.den) (hs : 0 < s.den) (h : r.value ≤ s.value) :
    roundingExponent f r ≤ roundingExponent f s := by
  by_cases hn : r.num = 0
  · rw [roundingExponent, if_pos hn]
    exact minExponent_le_roundingExponent s
  · have hn := Nat.pos_of_ne_zero hn
    have hlog := Ratio.log2_mono hn hr hs h
    have hpos : 0 < s.value := by
      refine lt_of_lt_of_le ?_ h
      rw [Ratio.value]
      positivity
    have hm := Ratio.num_pos_of_value_pos hpos
    rw [roundingExponent, roundingExponent, if_neg hn.ne', if_neg hm.ne']
    omega

/-- On one grid the mantissas keep the order. A finer grid ends, with its last unit, where the
mantissas of a coarser one begin to use the whole precision. -/
theorem value_le_of_nearest?_of_le (hr : 0 < r.den) (hs : 0 < s.den) (hp : 0 < f.precision)
    (hx : nearest? f r = some x) (hy : nearest? f s = some y) (h : r.value ≤ s.value) :
    x.value ≤ y.value := by
  rw [value_of_nearest? hr hp hx, value_of_nearest? hs hp hy]
  obtain ⟨hend, -⟩ := nearestEven_bounds (f := f) hr hp
  obtain ⟨-, hbegin⟩ := nearestEven_bounds (f := f) hs hp
  have hlow := minExponent_le_roundingExponent (f := f) r
  rcases (roundingExponent_mono_value (f := f) hr hs h).lt_or_eq with hlt | heq
  · have hbegin := hbegin.resolve_right (by omega)
    generalize (r.scale 2 (-roundingExponent f r)).nearestEven = m at *
    generalize (s.scale 2 (-roundingExponent f s)).nearestEven = n at *
    generalize roundingExponent f r = d at *
    generalize roundingExponent f s = e at *
    calc (m : ℚ) * 2 ^ d ≤ (2 ^ f.precision : Nat) * 2 ^ d := by gcongr
      _ = (2 ^ (f.precision - 1) : Nat) * 2 ^ (d + 1) := by
          rw [← Nat.pow_pred_mul hp, zpow_add_one₀ (by decide)]
          push_cast
          ring
      _ ≤ (n : ℚ) * 2 ^ e := by
          gcongr
          · norm_num
          · exact hlt
  · rw [heq]
    gcongr
    apply Ratio.nearestEven_mono (Ratio.den_scale_pos (by decide) hr _)
      (Ratio.den_scale_pos (by decide) hs _)
    rw [Ratio.value_scale_neg, Ratio.value_scale_neg]
    gcongr

theorem value_eq_units (x : Magnitude f) : x.value = x.units * 2 ^ f.minExponent := by
  obtain ⟨-, hmin, -⟩ := BinaryFormat.fits_iff.1 x.fits
  obtain ⟨k, hk⟩ := Int.eq_ofNat_of_zero_le (Int.sub_nonneg.2 hmin)
  have hexponent : x.exponent = k + f.minExponent := by omega
  rw [value, units, hk, hexponent, zpow_add₀ (by decide), zpow_natCast]
  simp only [Int.toNat_natCast, Nat.pow_eq]
  push_cast
  ring

theorem units_le_iff : x.units ≤ y.units ↔ x.value ≤ y.value := by
  rw [value_eq_units, value_eq_units, mul_le_mul_iff_of_pos_right (by positivity), Nat.cast_le]

/-- Rounding into a format keeps the order. -/
theorem units_le_of_nearest? (hr : 0 < r.den) (hs : 0 < s.den) (hp : 0 < f.precision)
    (hx : nearest? f r = some x) (hy : nearest? f s = some y) (h : r.value ≤ s.value) :
    x.units ≤ y.units :=
  units_le_iff.2 (value_le_of_nearest?_of_le hr hs hp hx hy h)

theorem units_of_nearest?_zero (hr : 0 < r.den) (hp : 0 < f.precision)
    (hx : nearest? f r = some x) (h : r.value = 0) : x.units = 0 := by
  have hzero : (r.scale 2 (-roundingExponent f r)).nearestEven = 0 := by
    apply Nat.le_zero.1
    apply Ratio.nearestEven_le (Ratio.den_scale_pos (by decide) hr _)
    rw [Ratio.value_scale_neg, h]
    simp
  have hvalue := value_of_nearest? hr hp hx
  rw [hzero, value_eq_units, Nat.cast_zero, zero_mul] at hvalue
  exact_mod_cast (mul_eq_zero.1 hvalue).resolve_right (by positivity)

end Magnitude

end RecordSearch
