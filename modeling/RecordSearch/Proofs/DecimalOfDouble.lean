import RecordSearch.Proofs.WholeDigits

/-!
The decimal of a floating-point number, against the decimal that was rounded to it. Digits are
dropped one by one, and rounding each of them moves the rest by up to five ninths in all. Whether
that brings back the digits at which the number was written depends on how far it was rounded, which
is up to half a unit where sixteen digits start with more than four.

* `Decimal.near_dropPlace`: dropping a digit keeps to the bound;
* `Decimal.sub_absorbHalvings_le`: what is lost before any digit is dropped;
* `Decimal.settle_of_close`: the digits that are left are those of a short decimal;
* `Decimal.exists_ofDouble?_of_short`: a short decimal comes back.
-/

namespace RecordSearch.Decimal

/-- How far off a number is, as a part of it, once it is rounded to 53 bits and brought to a power
of ten. -/
def slack : ℚ := 1 / 2 ^ 53 + 1 / 2 ^ 80

/-- The bits stand for the number with so many places, up to the slack and to the sum of what is
lost and gained with the digits that are dropped. -/
def Near (v : ℚ) (bits scale : Nat) : Prop :=
  (bits : ℚ) - v * 10 ^ scale ≤ 5 / 9 + slack * (v * 10 ^ scale) ∧
    v * 10 ^ scale - bits ≤ 4 / 9 + slack * (v * 10 ^ scale)

variable {v : ℚ} {bits scale : Nat}

theorem dropPlace_bounds (bits : Nat) :
    10 * dropPlace bits ≤ bits + 5 ∧ bits ≤ 10 * dropPlace bits + 4 := by
  unfold dropPlace
  split <;> omega

theorem near_dropPlace (h : Near v bits (scale + 1)) : Near v (dropPlace bits) scale := by
  obtain ⟨hle, hge⟩ := dropPlace_bounds bits
  replace hle : (10 : ℚ) * dropPlace bits ≤ bits + 5 := by exact_mod_cast hle
  replace hge : (bits : ℚ) ≤ 10 * dropPlace bits + 4 := by exact_mod_cast hge
  unfold Near at h ⊢
  rw [pow_succ, ← mul_assoc] at h
  generalize v * 10 ^ scale = t at *
  constructor <;> linarith [h.1, h.2]

theorem slack_pos : 0 < slack := by
  unfold slack
  positivity

theorem slack_mul_lt {t : ℚ} (h : t ≤ 4 * 10 ^ 15) : slack * t < 4 / 9 :=
  calc slack * t ≤ slack * (4 * 10 ^ 15) := mul_le_mul_of_nonneg_left h slack_pos.le
    _ < 4 / 9 := by norm_num [slack]

/-- A whole number is met exactly as long as the slack stays below what the digits leave. -/
theorem eq_of_near {n : Nat} (hn : v * 10 ^ scale = n) (hshort : n ≤ 4 * 10 ^ 15)
    (h : Near v bits scale) : bits = n := by
  obtain ⟨hle, hge⟩ := h
  have hslack : slack * (n : ℚ) < 4 / 9 := slack_mul_lt (by exact_mod_cast hshort)
  rw [hn] at hle hge
  have hlt : bits < n + 1 := by
    have : (bits : ℚ) < n + 1 := by linarith
    exact_mod_cast this
  have hgt : n < bits + 1 := by
    have : (n : ℚ) < bits + 1 := by linarith
    exact_mod_cast this
  omega

/-- Digits are dropped no further than to the last one of the number. -/
theorem cutToPrecision_of_near {n places : Nat} (hn : v * 10 ^ places = n) (hshort : n ≤ 4 * 10 ^ 15)
    (hplaces : places ≤ scale) (h : Near v bits scale) :
    places ≤ (cutToPrecision bits scale).2 ∧ (cutToPrecision bits scale).2 ≤ scale ∧
      Near v (cutToPrecision bits scale).1 (cutToPrecision bits scale).2 ∧
      ((cutToPrecision bits scale).1 < 2 ^ 52 ∨ (cutToPrecision bits scale).2 = 0) := by
  induction scale generalizing bits with
  | zero => exact ⟨hplaces, Nat.le_refl _, h, .inr rfl⟩
  | succ scale ih =>
    rw [cutToPrecision]
    split
    · next hfull =>
      have hle : places ≤ scale := by
        refine Nat.le_of_lt_succ (Nat.lt_of_le_of_ne hplaces ?_)
        rintro rfl
        have := eq_of_near hn hshort h
        rw [Nat.pow_eq] at hfull
        omega
      obtain ⟨h1, h2, h3⟩ := ih hle (near_dropPlace h)
      exact ⟨h1, Nat.le_succ_of_le h2, h3⟩
    · next hfull => exact ⟨hplaces, Nat.le_refl _, h, .inl (Nat.not_le.1 hfull)⟩

theorem cutToScale_of_near {extra : Nat} (hv : 1 ≤ v * 10 ^ 28) (h : Near v bits (28 + extra)) :
    (cutToScale bits extra).2 = 28 ∧ Near v (cutToScale bits extra).1 28 := by
  induction extra generalizing bits with
  | zero => exact ⟨rfl, h⟩
  | succ extra ih =>
    have hne : bits / 10 ≠ 0 := by
      have hpow : (1 : ℚ) ≤ 10 ^ extra := one_le_pow₀ (by norm_num)
      have hlarge : 10 ≤ v * 10 ^ (28 + (extra + 1)) :=
        calc (10 : ℚ) = 1 * (1 * 10) := by norm_num
          _ ≤ v * 10 ^ 28 * (10 ^ extra * 10) := by gcongr
          _ = v * 10 ^ (28 + (extra + 1)) := by ring
      have hge := h.2
      generalize v * 10 ^ (28 + (extra + 1)) = t at hlarge hge
      have hslack : slack * t ≤ t / 100 := by
        have : slack ≤ 1 / 100 := by norm_num [slack]
        nlinarith
      have : 9 < bits := by
        have : (9 : ℚ) < bits := by linarith
        exact_mod_cast this
      omega
    rw [cutToScale, if_neg hne]
    exact ih (near_dropPlace h)

/-- Up to the slack the bits are the number with so many places. -/
def Close (v : ℚ) (bits scale : Nat) : Prop :=
  |(bits : ℚ) - v * 10 ^ scale| ≤ slack * (v * 10 ^ scale)

theorem near_of_close (h : Close v bits scale) : Near v bits scale := by
  obtain ⟨hge, hle⟩ := abs_le.1 h
  constructor <;> linarith

/-- The digits of a short decimal, written out to sixteen places, are not among those above four
that a number of 53 bits does not vouch for. -/
def ShortDigits (n : Nat) : Prop :=
  n ≤ 4 * 10 ^ 15 ∧ ∀ k < 16, n * 10 ^ k < 2 ^ 52 → n * 10 ^ k ≤ 4 * 10 ^ 15

/-- With fewer places than the number has the bits already are the number. -/
theorem eq_of_close {n places : Nat} (hn : v * 10 ^ places = n) (hshort : n ≤ 4 * 10 ^ 15)
    (hplaces : scale ≤ places) (h : Close v bits scale) : bits * 10 ^ (places - scale) = n := by
  have hslack : slack * (n : ℚ) < 4 / 9 := slack_mul_lt (by exact_mod_cast hshort)
  have hpow : (0 : ℚ) < 10 ^ (places - scale) := by positivity
  have hsplit : v * 10 ^ scale * 10 ^ (places - scale) = n := by
    rw [mul_assoc, ← pow_add, Nat.add_sub_cancel' hplaces, hn]
  have hdistance : |((bits * 10 ^ (places - scale) : Nat) : ℚ) - n| < 1 := by
    calc |((bits * 10 ^ (places - scale) : Nat) : ℚ) - n|
        = |(bits : ℚ) - v * 10 ^ scale| * 10 ^ (places - scale) := by
          rw [← hsplit, ← abs_of_pos hpow, ← abs_mul, abs_of_pos hpow, sub_mul]
          push_cast
          rfl
      _ ≤ slack * (v * 10 ^ scale) * 10 ^ (places - scale) := by
          gcongr
          exact h
      _ = slack * n := by rw [mul_assoc, hsplit]
      _ < 1 := by linarith
  have hzero : ((bits * 10 ^ (places - scale) : Nat) : Int) - n = 0 := by
    rw [← Int.abs_lt_one_iff]
    exact_mod_cast hdistance
  omega

/-- What is left at the end has the value, if there are places enough for it. -/
theorem value_of_near {n places kept : Nat} (hn : v * 10 ^ places = n) (hpos : 0 < n)
    (hshort : ShortDigits n) (hplaces : places ≤ kept) (h : Near v bits kept)
    (hend : bits < 2 ^ 52 ∨ kept = 0) : bits ≤ 4 * 10 ^ 15 ∧ v * 10 ^ kept = bits := by
  have hgrown : v * 10 ^ kept = (n * 10 ^ (kept - places) : Nat) := by
    push_cast
    rw [← hn, mul_assoc, ← pow_add, Nat.add_sub_cancel' hplaces]
  have hle : n * 10 ^ (kept - places) ≤ 4 * 10 ^ 15 := by
    rcases hend with hbits | rfl
    · have hlt : n * 10 ^ (kept - places) < 2 ^ 52 := by
        have hbits' : (bits : ℚ) + 1 ≤ 2 ^ 52 := by exact_mod_cast hbits
        have hge := h.2
        rw [hgrown] at hge
        by_contra hlarge
        have hlarge' : (2 : ℚ) ^ 52 ≤ (n * 10 ^ (kept - places) : Nat) := by
          exact_mod_cast Nat.not_lt.1 hlarge
        generalize ((n * 10 ^ (kept - places) : Nat) : ℚ) = t at *
        have hslack : (1 - slack) * 2 ^ 52 ≤ (1 - slack) * t := by
          gcongr
          norm_num [slack]
        have hbound : (2 : ℚ) ^ 52 - 5 / 9 < (1 - slack) * 2 ^ 52 := by norm_num [slack]
        linarith
      refine hshort.2 _ ?_ hlt
      by_contra hmany
      have hpow : 10 ^ 16 ≤ 10 ^ (kept - places) := Nat.pow_le_pow_right (by decide) (by omega)
      have := Nat.le_mul_of_pos_left (10 ^ (kept - places)) hpos
      omega
    · rw [Nat.zero_sub, Nat.pow_zero, Nat.mul_one]
      exact hshort.1
  have heq := eq_of_near hgrown hle h
  exact ⟨heq ▸ hle, by rw [hgrown, heq]⟩

/-- The bits and places once no more than 28 places are left. -/
def cutPlaces (bits scale : Nat) : Nat × Nat :=
  if scale ≤ 28 then (bits, scale) else cutToScale bits (scale - 28)

/-- The bits and places once no more than 52 bits are left, as far as there are places to drop. -/
def cutBits (bits scale : Nat) : Nat × Nat :=
  cutToPrecision (cutPlaces bits scale).1 (cutPlaces bits scale).2

theorem settle_neg (bits scale : Nat) :
    settle bits (-scale) = some (strip (cutBits bits scale).1 (cutBits bits scale).2) := by
  rw [settle, if_neg (by omega), neg_neg, Int.toNat_natCast]
  rfl

theorem cutBits_of_close {n places : Nat} (hn : v * 10 ^ places = n) (hpos : 0 < n)
    (hshort : ShortDigits n) (hplaces : places ≤ 28) (h : Close v bits scale) :
    (cutBits bits scale).1 ≤ 4 * 10 ^ 15 ∧ (cutBits bits scale).2 ≤ 28 ∧
      v * 10 ^ (cutBits bits scale).2 = (cutBits bits scale).1 := by
  rcases Nat.lt_or_ge scale places with hlt | hge
  · have heq := eq_of_close hn hshort.1 hlt.le h
    have hle : bits ≤ 4 * 10 ^ 15 := by
      have hpow : 0 < 10 ^ (places - scale) := Nat.pow_pos (by decide)
      exact (Nat.le_mul_of_pos_right bits hpow).trans (heq ▸ hshort.1)
    have hkeep : cutBits bits scale = (bits, scale) := by
      rw [cutBits, cutPlaces, if_pos (by omega)]
      cases scale with
      | zero => rfl
      | succ scale => rw [cutToPrecision, if_neg (by rw [Nat.pow_eq]; omega)]
    rw [hkeep]
    refine ⟨hle, by omega, ?_⟩
    have hpow : (10 : ℚ) ^ (places - scale) ≠ 0 := by positivity
    apply mul_right_cancel₀ hpow
    rw [mul_assoc, ← pow_add, Nat.add_sub_cancel' hlt.le, hn, ← heq]
    push_cast
    rfl
  · have hwide : places ≤ (cutPlaces bits scale).2 ∧ (cutPlaces bits scale).2 ≤ 28 ∧
        Near v (cutPlaces bits scale).1 (cutPlaces bits scale).2 := by
      rw [cutPlaces]
      split
      · next hscale => exact ⟨hge, hscale, near_of_close h⟩
      · next hscale =>
        have hone : 1 ≤ v * 10 ^ 28 :=
          calc (1 : ℚ) ≤ n * 10 ^ (28 - places) := by
                exact_mod_cast Nat.mul_pos hpos (Nat.pow_pos (by decide))
            _ = v * 10 ^ 28 := by rw [← hn, mul_assoc, ← pow_add, Nat.add_sub_cancel' hplaces]
        have hsum : 28 + (scale - 28) = scale := by omega
        obtain ⟨heq, hnear⟩ := cutToScale_of_near hone (hsum.symm ▸ near_of_close h)
        rw [heq]
        exact ⟨hplaces, Nat.le_refl _, hnear⟩
    obtain ⟨hlow, hhigh, hnear⟩ := hwide
    obtain ⟨hlow', hhigh', hnear', hend⟩ := cutToPrecision_of_near hn hshort.1 hlow hnear
    obtain ⟨hle, hvalue⟩ := value_of_near hn hpos hshort hlow' hnear' hend
    exact ⟨hle, hhigh'.trans hhigh, hvalue⟩

/-- **What is left are the digits of a short decimal.** -/
theorem settle_of_close {n places : Nat} (hn : v * 10 ^ places = n) (hpos : 0 < n)
    (hshort : ShortDigits n) (hplaces : places ≤ 28) (h : Close v bits scale) :
    ∃ m kept, settle bits (-scale) = some (m, kept) ∧ m ≤ 4 * 10 ^ 15 ∧ kept ≤ 28 ∧
      (m : ℚ) * 10 ^ (-(kept : Int)) = v := by
  obtain ⟨hle, hkept, hvalue⟩ := cutBits_of_close hn hpos hshort hplaces h
  obtain ⟨hdigits, hscale⟩ := strip_le (cutBits bits scale).1 (cutBits bits scale).2
  refine ⟨_, _, settle_neg bits scale, hdigits.trans hle, hscale.trans hkept, ?_⟩
  rw [value_strip, ← hvalue, mul_assoc, zpow_neg, zpow_natCast,
    mul_inv_cancel₀ (by positivity), mul_one]

theorem sub_absorbHalvings_le (bits : Nat) (tens : Int) (count : Nat) :
    ((absorbHalvings bits tens count).1 : ℚ) * 10 ^ (absorbHalvings bits tens count).2 ≤
        bits * 5 ^ count * 10 ^ tens ∧
      bits * 5 ^ count * 10 ^ tens -
          ((absorbHalvings bits tens count).1 : ℚ) * 10 ^ (absorbHalvings bits tens count).2 ≤
        count / 2 ^ 93 * (bits * 5 ^ count * 10 ^ tens) ∧
      (absorbHalvings bits tens count).2 ≤ tens + count := by
  induction count generalizing bits tens with
  | zero => simp [absorbHalvings]
  | succ count ih =>
    -- A halving of even bits and a factor of five leave the number as it is.
    have hhalf : ∀ half : Nat, (half : ℚ) * 5 ^ count * 10 ^ (tens + 1) =
        (2 * half : Nat) * 5 ^ (count + 1) * 10 ^ tens := by
      intro half
      rw [zpow_add_one₀ (by decide), pow_succ]
      push_cast
      ring
    have hfive : ((5 * bits : Nat) : ℚ) * 5 ^ count * 10 ^ tens =
        bits * 5 ^ (count + 1) * 10 ^ tens := by
      rw [pow_succ]
      push_cast
      ring
    have hpos : (0 : ℚ) ≤ bits * 5 ^ (count + 1) * 10 ^ tens := by positivity
    rw [absorbHalvings]
    split
    · next heven =>
      obtain ⟨hle, hloss, htens⟩ := ih (bits / 2) (tens + 1)
      rw [hhalf, Nat.mul_div_cancel' (Nat.dvd_of_mod_eq_zero heven)] at hle hloss
      refine ⟨hle, hloss.trans ?_, by push_cast; omega⟩
      gcongr
      omega
    · next hodd =>
      split
      · obtain ⟨hle, hloss, htens⟩ := ih (5 * bits) tens
        rw [hfive] at hle hloss
        refine ⟨hle, hloss.trans ?_, by push_cast; omega⟩
        gcongr
        omega
      · next hfull =>
        -- The last bit is given up, of more than 93.
        obtain ⟨hle, hloss, htens⟩ := ih (bits / 2) (tens + 1)
        have hsplit : (bits : ℚ) = (2 * (bits / 2) : Nat) + 1 := by
          exact_mod_cast (by omega : bits = 2 * (bits / 2) + 1)
        have hlarge : (2 : ℚ) ^ 93 ≤ bits := by
          rw [Nat.pow_eq] at hfull
          exact_mod_cast (by omega : 2 ^ 93 ≤ bits)
        rw [hhalf] at hle hloss
        have hunit : (0 : ℚ) < 5 ^ (count + 1) * 10 ^ tens := by positivity
        have hlast : (5 : ℚ) ^ (count + 1) * 10 ^ tens ≤
            1 / 2 ^ 93 * (bits * 5 ^ (count + 1) * 10 ^ tens) := by
          rw [mul_assoc, ← mul_assoc (1 / 2 ^ 93)]
          refine le_mul_of_one_le_left hunit.le ?_
          rw [one_div, inv_mul_eq_div, one_le_div (by positivity)]
          exact hlarge
        have hstep : (bits : ℚ) * 5 ^ (count + 1) * 10 ^ tens =
            (2 * (bits / 2) : Nat) * 5 ^ (count + 1) * 10 ^ tens + 5 ^ (count + 1) * 10 ^ tens := by
          rw [hsplit]
          push_cast
          ring
        generalize ((absorbHalvings (bits / 2) (tens + 1) count).1 : ℚ) *
          10 ^ (absorbHalvings (bits / 2) (tens + 1) count).2 = result at *
        generalize (5 : ℚ) ^ (count + 1) * 10 ^ tens = unit at *
        generalize ((2 * (bits / 2) : Nat) : ℚ) * 5 ^ (count + 1) * 10 ^ tens = kept at *
        generalize (bits : ℚ) * 5 ^ (count + 1) * 10 ^ tens = whole at *
        have hshrink : (count : ℚ) / 2 ^ 93 * kept ≤ count / 2 ^ 93 * whole := by
          gcongr
          linarith
        refine ⟨by linarith, ?_, by push_cast; omega⟩
        push_cast
        rw [add_div, add_mul]
        linarith

variable {d e : Decimal}

theorem units_eq_of_value (hsign : d.negative = e.negative)
    (h : d.numeral.value = e.numeral.value) : d.units = e.units := by
  have hsize : d.units.natAbs = e.units.natAbs := by
    rw [← value_ratio, ← value_ratio, ← Nat.pow_eq, ← Nat.pow_eq, value_eq_units, value_eq_units,
      div_left_inj' (by positivity)] at h
    exact_mod_cast h
  rw [units, units, Floating.natAbs_signed, Floating.natAbs_signed] at hsize
  rw [units, units, hsign, hsize]

theorem value_mul_pow (d : Decimal) : d.numeral.value * 10 ^ d.scale = d.mantissa := by
  rw [numeral, Numeral.value, mul_assoc, zpow_neg, zpow_natCast, inv_mul_cancel₀ (by positivity),
    mul_one]

/-- What is rounded to the double is close to what its mantissa becomes. -/
theorem close_absorbHalvings {m : Magnitude .binary64} {v : ℚ} (hv : 0 ≤ v)
    (hexp : m.exponent < 0) (hclose : |m.value - v| ≤ v / 2 ^ 53) :
    ∃ scale : Nat, (absorbHalvings m.mantissa m.exponent m.exponent.natAbs).2 = -(scale : Int) ∧
      Close v (absorbHalvings m.mantissa m.exponent m.exponent.natAbs).1 scale := by
  have hmin : -1074 ≤ m.exponent := m.fits.2.1
  obtain ⟨count, hcount⟩ : ∃ count : Nat, m.exponent = -(count : Int) := ⟨_, Int.eq_neg_natAbs_of_nonpos hexp.le⟩
  have hwhole : (m.mantissa : ℚ) * 5 ^ count * 10 ^ m.exponent = m.value := by
    have hten : (10 : ℚ) ^ count = 2 ^ count * 5 ^ count := by
      rw [← mul_pow]
      norm_num
    rw [Magnitude.value, hcount, zpow_neg, zpow_neg, zpow_natCast, zpow_natCast, hten]
    field_simp
  have habs : m.exponent.natAbs = count := by omega
  obtain ⟨hle, hloss, htens⟩ := sub_absorbHalvings_le m.mantissa m.exponent count
  rw [hwhole] at hle hloss
  rw [habs]
  generalize absorbHalvings m.mantissa m.exponent count = result at *
  obtain ⟨scale, hscale⟩ : ∃ scale : Nat, result.2 = -(scale : Int) :=
    ⟨_, Int.eq_neg_natAbs_of_nonpos (by omega)⟩
  refine ⟨scale, hscale, ?_⟩
  have hpow : (0 : ℚ) < 10 ^ scale := by positivity
  have hbits : (result.1 : ℚ) = result.1 * 10 ^ result.2 * 10 ^ scale := by
    rw [hscale, mul_assoc, zpow_neg, zpow_natCast, inv_mul_cancel₀ hpow.ne', mul_one]
  generalize (result.1 : ℚ) * 10 ^ result.2 = q at *
  obtain ⟨hge', hle'⟩ := abs_le.1 hclose
  have hlost : (count : ℚ) / 2 ^ 93 * m.value ≤ 1 / 2 ^ 82 * (2 * v) := by
    have hmany : (count : ℚ) / 2 ^ 93 ≤ 1 / 2 ^ 82 := by
      have hcount' : (count : ℚ) ≤ 1074 := by exact_mod_cast (by omega : count ≤ 1074)
      calc (count : ℚ) / 2 ^ 93 ≤ 1074 / 2 ^ 93 := by gcongr
        _ ≤ 1 / 2 ^ 82 := by norm_num
    have hvalue : m.value ≤ 2 * v := by
      norm_num at hle'
      linarith
    have hnonneg : 0 ≤ m.value := by
      rw [Magnitude.value]
      positivity
    gcongr
  rw [Close, hbits, ← sub_mul, abs_mul, abs_of_pos hpow, ← mul_assoc]
  gcongr
  rw [abs_le, slack]
  norm_num at *
  constructor <;> linarith

theorem abs_sub_toDouble_le {m : Magnitude .binary64} (hpos : 0 < d.mantissa)
    (hnearest : Magnitude.nearest? .binary64 ⟨d.mantissa, 10 ^ d.scale⟩ = some m) :
    |m.value - d.numeral.value| ≤ d.numeral.value / 2 ^ 53 := by
  have hden : 0 < 10 ^ d.scale := Nat.pow_pos (by decide)
  have hlog : -94 ≤ Ratio.log2 ⟨d.mantissa, 10 ^ d.scale⟩ := by
    rw [Ratio.le_log2_iff hpos hden, Ratio.value, le_div_iff₀ (by positivity)]
    have hone : (1 : ℚ) ≤ d.mantissa := by exact_mod_cast hpos
    have hscale : ((10 ^ d.scale : Nat) : ℚ) ≤ (10 ^ 28 : Nat) := by
      exact_mod_cast Nat.pow_le_pow_right (by decide) d.scale_le
    calc (2 : ℚ) ^ (-94 : Int) * (10 ^ d.scale : Nat) ≤ 2 ^ (-94 : Int) * (10 ^ 28 : Nat) := by
          gcongr
      _ ≤ 1 := by norm_num
      _ ≤ d.mantissa := hone
  rw [← value_ratio]
  refine Magnitude.abs_value_sub_le (f := .binary64) hpos hden (by decide) ?_ hnearest
  change (-1074 : Int) ≤ _ - 52
  omega

/-- **A short decimal comes back** from the double that it is rounded to, if not with all its
places. -/
theorem exists_ofDouble?_of_short (hshort : ShortDigits d.mantissa) :
    ∃ e, ofDouble? d.toDouble = some e ∧ e.units = d.units := by
  have hden : 0 < 10 ^ d.scale := Nat.pow_pos (by decide)
  obtain ⟨m, hm, hnearest⟩ := d.exists_toDouble
  rw [hm]
  rcases Nat.eq_zero_or_pos d.mantissa with hzero | hpos
  · have hnone : Magnitude.nearest? .binary64 ⟨0, 1⟩ = some ⟨0, -1074, by decide⟩ := by
      decide +kernel
    rw [hzero, Magnitude.nearest?_zero, hnone] at hnearest
    obtain rfl := Option.some.inj hnearest
    refine ⟨⟨d.negative, 0, 0, by decide, by decide⟩, rfl, ?_⟩
    rw [units, units, hzero, Nat.zero_mul, Nat.zero_mul]
  · have hvalue := value_mul_pow d
    have hclose := abs_sub_toDouble_le hpos hnearest
    have hpow : (0 : ℚ) < 10 ^ d.scale := by positivity
    have hone : (1 : ℚ) ≤ 10 ^ d.scale := one_le_pow₀ (by norm_num)
    have hpos' : (0 : ℚ) < d.mantissa := by exact_mod_cast hpos
    have hv : 0 < d.numeral.value := mul_pos hpos' (by positivity)
    have hsmall : d.numeral.value ≤ 4 * 10 ^ 15 := by
      have hdigits : (d.mantissa : ℚ) ≤ 4 * 10 ^ 15 := by exact_mod_cast hshort.1
      rw [← hvalue] at hdigits
      exact (le_mul_of_one_le_right hv.le hone).trans hdigits
    obtain ⟨hge, hle⟩ := abs_le.1 hclose
    have hm0 : m.mantissa ≠ 0 := by
      intro hm0
      rw [Magnitude.value, hm0, Nat.cast_zero, zero_mul] at hge
      norm_num at hge
      linarith
    have hexp : m.exponent < 0 := by
      by_contra hexp
      have hfull : 2 ^ 52 ≤ m.mantissa := by
        refine m.fits.2.2.2.resolve_right fun hmin => ?_
        rw [hmin] at hexp
        exact hexp (by decide)
      have hfull' : (2 : ℚ) ^ 52 ≤ m.mantissa := by exact_mod_cast hfull
      have hlarge : (m.mantissa : ℚ) * 1 ≤ m.value := by
        rw [Magnitude.value]
        gcongr
        exact one_le_zpow₀ (by decide) (Int.not_lt.1 hexp)
      have hbig : (2 : ℚ) ^ 52 ≤ m.value := by linarith only [hfull', hlarge]
      norm_num at hbig hle hsmall
      linarith
    obtain ⟨scale, hscale, hbits⟩ := close_absorbHalvings hv.le hexp hclose
    obtain ⟨n, kept, hsettle, hn, hkept, hback⟩ :=
      settle_of_close hvalue hpos hshort d.scale_le hbits
    have hfits : n < Nat.pow 2 96 ∧ kept ≤ 28 := ⟨by rw [Nat.pow_eq]; omega, hkept⟩
    refine ⟨⟨d.negative, n, kept, hfits.1, hfits.2⟩, ?_, ?_⟩
    · rw [ofDouble?, if_neg hm0, if_pos hexp]
      simp only [Option.bind_eq_bind, Option.bind_some, hscale, hsettle]
      exact dif_pos hfits
    · exact units_eq_of_value rfl hback

end RecordSearch.Decimal
