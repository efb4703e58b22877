import RecordSearch.Proofs.DecimalOfDouble

/-!
Which doubles become decimals. Fractions always do, as places can be cut, and whole numbers do as
long as their doublings stay within 96 bits.

* `Decimal.absorbDoublings_eq`: doublings are all made, or there are too many of them;
* `Decimal.exists_settle_neg`: cutting places leaves a decimal;
* `Decimal.ofDouble?_eq_none_iff`: doubles from `2 ^ 96` on are no decimals, and all others are.
-/

namespace RecordSearch

namespace Decimal

variable {bits scale count : Nat} {tens : Int}

theorem dropPlace_le (bits : Nat) : dropPlace bits ≤ bits := by
  have := (dropPlace_bounds bits).1
  omega

theorem cutToScale_le (bits extra : Nat) :
    (cutToScale bits extra).1 ≤ bits ∧ (cutToScale bits extra).2 ≤ 28 := by
  induction extra generalizing bits with
  | zero => exact ⟨le_rfl, le_rfl⟩
  | succ extra ih =>
    rw [cutToScale]
    split
    · exact ⟨Nat.zero_le _, Nat.zero_le _⟩
    · exact ⟨(ih _).1.trans (dropPlace_le bits), (ih _).2⟩

theorem cutToPrecision_le (bits scale : Nat) :
    (cutToPrecision bits scale).1 ≤ bits ∧ (cutToPrecision bits scale).2 ≤ scale := by
  induction scale generalizing bits with
  | zero => exact ⟨le_rfl, le_rfl⟩
  | succ scale ih =>
    rw [cutToPrecision]
    split
    · exact ⟨(ih _).1.trans (dropPlace_le bits), (ih _).2.trans (Nat.le_succ _)⟩
    · exact ⟨le_rfl, le_rfl⟩

theorem cutBits_le (bits scale : Nat) :
    (cutBits bits scale).1 ≤ bits ∧ (cutBits bits scale).2 ≤ 28 := by
  have hplaces : (cutPlaces bits scale).1 ≤ bits ∧ (cutPlaces bits scale).2 ≤ 28 := by
    rw [cutPlaces]
    split
    · next h => exact ⟨le_rfl, h⟩
    · exact cutToScale_le bits _
  have hprecision := cutToPrecision_le (cutPlaces bits scale).1 (cutPlaces bits scale).2
  exact ⟨hprecision.1.trans hplaces.1, hprecision.2.trans hplaces.2⟩

/-- Places can always be cut. -/
theorem exists_settle_neg (negative : Bool) (h : bits < 2 ^ 96) (scale : Nat) :
    ∃ d, (settle bits (-scale)).bind (fun p => of? negative p.1 p.2) = some d := by
  have hcut := cutBits_le bits scale
  have hstrip := strip_le (cutBits bits scale).1 (cutBits bits scale).2
  rw [settle_neg, Option.bind_some, of?, dif_pos]
  · exact ⟨_, rfl⟩
  · rw [Nat.pow_eq]
    omega

theorem absorbHalvings_lt (h : bits < 2 ^ 96) : (absorbHalvings bits tens count).1 < 2 ^ 96 := by
  induction count generalizing bits tens with
  | zero => exact h
  | succ count ih =>
    rw [absorbHalvings]
    split
    · exact ih (by omega)
    · split
      · next hfive =>
        rw [Nat.pow_eq] at hfive
        exact ih hfive
      · exact ih (by omega)

/-- As many doublings as places are either all made or too many. -/
theorem absorbDoublings_eq (h : bits < 2 ^ 96) : absorbDoublings bits count count =
    if bits * 2 ^ count < 2 ^ 96 then some (bits * 2 ^ count, 0) else none := by
  induction count generalizing bits with
  | zero => rw [Nat.pow_zero, Nat.mul_one, if_pos h]; rfl
  | succ count ih =>
    have hpow : bits * 2 ^ (count + 1) = 2 * bits * 2 ^ count := by ring
    have hone : 1 ≤ 2 ^ count := Nat.one_le_two_pow
    rw [absorbDoublings, hpow]
    split
    · next hlt =>
      rw [Nat.pow_eq] at hlt
      rw [Nat.cast_succ, add_sub_cancel_right, ih (by omega)]
    · next hge =>
      rw [Nat.pow_eq] at hge
      rw [if_pos (by push_cast; omega), if_neg]
      nlinarith

theorem ofDouble?_finite {negative : Bool} {m : Magnitude .binary64} (hm : m.mantissa ≠ 0) :
    ofDouble? (.finite negative m) =
      (if m.exponent < 0 then some (absorbHalvings m.mantissa m.exponent m.exponent.natAbs)
        else absorbDoublings m.mantissa m.exponent m.exponent.natAbs).bind fun grown =>
          (settle grown.1 grown.2).bind fun p => of? negative p.1 p.2 := by
  rw [ofDouble?, if_neg hm]
  split <;> rfl

/-- Fractions become decimals, if not with all their digits. -/
theorem exists_ofDouble?_of_neg (negative : Bool) {m : Magnitude .binary64}
    (hm : m.mantissa ≠ 0) (hexp : m.exponent < 0) :
    ∃ d, ofDouble? (.finite negative m) = some d := by
  have hmantissa : m.mantissa < 2 ^ 53 := m.fits.1
  have hbits : (absorbHalvings m.mantissa m.exponent m.exponent.natAbs).1 < 2 ^ 96 :=
    absorbHalvings_lt (by omega)
  obtain ⟨-, -, htens⟩ := sub_absorbHalvings_le m.mantissa m.exponent m.exponent.natAbs
  obtain ⟨scale, hscale⟩ : ∃ scale : Nat,
      (absorbHalvings m.mantissa m.exponent m.exponent.natAbs).2 = -(scale : Int) :=
    ⟨_, Int.eq_neg_natAbs_of_nonpos (by omega)⟩
  rw [ofDouble?_finite hm, if_pos hexp, Option.bind_some, hscale]
  exact exists_settle_neg negative hbits scale

/-- **Doubles become decimals** as long as 96 bits hold their whole part. -/
theorem ofDouble?_eq_none_iff (negative : Bool) (m : Magnitude .binary64) :
    ofDouble? (.finite negative m) = none ↔ 2 ^ 96 ≤ m.value := by
  have hmantissa : m.mantissa < 2 ^ 53 := m.fits.1
  by_cases hm : m.mantissa = 0
  · have hvalue : m.value = 0 := by
      rw [Magnitude.value, hm, Nat.cast_zero, zero_mul]
    have hsome : ofDouble? (.finite negative m) = some ⟨negative, 0, 0, by decide, by decide⟩ :=
      if_pos hm
    rw [hsome, hvalue]
    exact iff_of_false (Option.some_ne_none _) (by norm_num)
  rcases lt_or_ge m.exponent 0 with hexp | hexp
  · obtain ⟨d, hd⟩ := exists_ofDouble?_of_neg negative hm hexp
    have hsmall : m.value < 2 ^ (96 : Int) := m.value_lt_pow.trans_le
      (zpow_le_zpow_right₀ (by decide) (by change (53 : Int) + _ ≤ _; omega))
    rw [hd]
    exact iff_of_false (Option.some_ne_none _) (not_le.2 (by exact_mod_cast hsmall))
  · obtain ⟨count, hcount⟩ := Int.eq_ofNat_of_zero_le hexp
    have hvalue : m.value = (m.mantissa * 2 ^ count : Nat) := by
      rw [Magnitude.value, hcount, zpow_natCast]
      push_cast
      rfl
    rw [ofDouble?_finite hm, if_neg (by omega), hcount, Int.natAbs_natCast,
      absorbDoublings_eq (by omega), hvalue]
    split
    · next hlt =>
      obtain ⟨d, hd⟩ := exists_settle_neg negative hlt 0
      rw [Nat.cast_zero, neg_zero] at hd
      rw [Option.bind_some, hd]
      exact iff_of_false (Option.some_ne_none _) (not_le.2 (by exact_mod_cast hlt))
    · next hge => exact iff_of_true rfl (by exact_mod_cast Nat.not_lt.1 hge)

end Decimal

end RecordSearch
