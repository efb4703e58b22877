import RecordSearch.Proofs.NearestValue
import RecordSearch.Proofs.ReadBack

/-!
Whole floating-point numbers show no fraction. The search for the shortest digits goes from coarse
to fine, and on the grid of whole numbers at the latest it finds the number itself.

* `Ratio.pow_log10_le` and `Ratio.lt_pow_log10`: the logarithm is the one that is meant;
* `Magnitude.exists_shortest_of_whole`: the shortest digits of a whole number are a whole number;
* `Floating.trunc?_of_text`: the floating-point number with the digits of a decimal has its whole
  part.
-/

namespace RecordSearch

namespace Ratio

variable {r : Ratio}

theorem pow_length_le_cast {n : Nat} (h : 0 < n) :
    (10 : ℚ) ^ (((Nat.toDigits 10 n).length : Int) - 1) ≤ n := by
  have hlen := List.length_pos_iff.2 (Digits.ofNat_ne_nil n)
  have hcast : ((Nat.toDigits 10 n).length : Int) - 1 = ((Digits.ofNat n).length - 1 : Nat) := by
    rw [Digits.ofNat] at hlen ⊢
    omega
  rw [hcast, zpow_natCast]
  exact_mod_cast Numeral.pow_length_le h.ne'

theorem cast_lt_pow_length (n : Nat) :
    (n : ℚ) < 10 ^ (((Nat.toDigits 10 n).length : Int) - 1 + 1) := by
  rw [sub_add_cancel, zpow_natCast]
  exact_mod_cast Numeral.lt_pow_length n

/-- The difference of the two lengths is off by one at most, on either side. -/
theorem value_bounds_length (hn : 0 < r.num) (hd : 0 < r.den) :
    (10 : ℚ) ^ (((Nat.toDigits 10 r.num).length : Int) - (Nat.toDigits 10 r.den).length - 1) ≤
        r.value ∧
      r.value <
        10 ^ (((Nat.toDigits 10 r.num).length : Int) - (Nat.toDigits 10 r.den).length + 1) := by
  have h := value_bounds_of (by decide : (0 : ℚ) < 10) hd
    ⟨pow_length_le_cast hn, cast_lt_pow_length _⟩ ⟨pow_length_le_cast hd, cast_lt_pow_length _⟩
  rwa [sub_sub_sub_cancel_right] at h

theorem pow_log10_le (hn : 0 < r.num) (hd : 0 < r.den) : (10 : ℚ) ^ r.log10 ≤ r.value := by
  rw [log10]
  split
  · next h => exact (isAtLeastPow_iff (by decide) hd _).1 h
  · exact (value_bounds_length hn hd).1

theorem lt_pow_log10 (hn : 0 < r.num) (hd : 0 < r.den) : r.value < 10 ^ (r.log10 + 1) := by
  rw [log10]
  split
  · exact (value_bounds_length hn hd).2
  · next h =>
    rw [Bool.not_eq_true, ← Bool.not_eq_true, isAtLeastPow_iff (by decide) hd, not_le] at h
    rwa [sub_add_cancel]

end Ratio

/-- A search that goes up finds something at the latest where there is something. -/
theorem exists_le_of_findSome?_range {β : Type} {f : Nat → Option β} {count i : Nat}
    (hi : i < count) (h : f i ≠ none) :
    ∃ j ≤ i, ∃ b, (List.range count).findSome? f = some b ∧ f j = some b := by
  obtain ⟨rest, rfl⟩ := Nat.exists_eq_add_of_le (Nat.succ_le_of_lt hi)
  rw [List.range_add, List.findSome?_append]
  cases hfind : (List.range (i + 1)).findSome? f with
  | none =>
    rw [List.findSome?_eq_none_iff] at hfind
    exact absurd (hfind i (List.mem_range.2 (Nat.lt_succ_self i))) h
  | some b =>
    obtain ⟨j, hj, hb⟩ := List.exists_of_findSome?_eq_some hfind
    exact ⟨j, Nat.le_of_lt_succ (List.mem_range.1 hj), b, rfl, hb⟩

namespace Magnitude

variable {x : Magnitude .binary64} {n : Nat}

theorem exponent_of_onGrid? {f : BinaryFormat} {nearest : Ratio → Nat} {x : Magnitude f}
    {grid : Int} {d : Numeral} (h : x.onGrid? nearest grid = some d) : d.exponent = grid := by
  simp only [onGrid?] at h
  split at h
  · rw [← Option.some.inj h]
    split <;> rfl
  · rw [← Option.some.inj h]
  · rw [← Option.some.inj h]
  · cases h

/-- On the grid of whole numbers a whole number finds itself. -/
theorem onGrid?_zero_ne_none (hx : x.value = n) (nearest : Ratio → Nat) :
    x.onGrid? nearest 0 ≠ none := by
  have hden := Ratio.den_scale_pos (by decide : 0 < 10) x.den_ratio_pos (-0)
  have hvalue : (x.ratio.scale 10 (-0)).value = n := by
    rw [Ratio.value_scale (by decide), value_ratio, hx, neg_zero, zpow_zero, mul_one]
  have hfloor : (x.ratio.scale 10 (-0)).floor = n := by
    rw [Ratio.floor_eq_iff hden, hvalue]
    exact ⟨le_rfl, by exact_mod_cast Nat.lt_succ_self n⟩
  have hreads : (nearestNumeral? .binary64 ⟨(x.ratio.scale 10 (-0)).floor, 0⟩ == some x) = true := by
    rw [hfloor, beq_iff_eq, ← nearestNumeral?_exactNumeral x]
    apply nearestNumeral?_congr
    rw [value_exactNumeral, hx, Numeral.value, zpow_zero, mul_one]
  simp only [onGrid?, hreads]
  cases nearestNumeral? .binary64 ⟨(x.ratio.scale 10 (-0)).floor + 1, 0⟩ == some x <;> simp

/-- **The shortest digits of a whole number are a whole number.** Of the grids that are looked at
before that of the whole numbers each is a part of it. -/
theorem exists_shortest_of_whole (hx : x.value = n) (hlt : n < 10 ^ 16) (nearest : Ratio → Nat) :
    ∃ k : Nat, (x.shortest nearest).value = k := by
  rw [shortest]
  split
  · exact ⟨0, by simp [Numeral.value]⟩
  · next hm =>
    have hten : (1 : ℚ) < 10 := by norm_num
    have hvalue : x.ratio.value = n := x.value_ratio.trans hx
    have hpos : 0 < n := by
      have hpow : (0 : ℚ) < 2 ^ (BinaryFormat.minExponent .binary64) := by positivity
      exact_mod_cast hpow.trans_le (hx ▸ le_value hm)
    have hnum : 0 < x.ratio.num := by
      refine Nat.pos_of_ne_zero fun hzero => ?_
      rw [Ratio.value, hzero, Nat.cast_zero, zero_div] at hvalue
      exact hpos.ne' (by exact_mod_cast hvalue.symm)
    have hlow : 0 ≤ x.ratio.log10 := by
      have hone : (10 : ℚ) ^ (0 : Int) ≤ n := by
        rw [zpow_zero]
        exact_mod_cast hpos
      have hlt := Ratio.lt_pow_log10 hnum x.den_ratio_pos
      rw [hvalue] at hlt
      have := (zpow_lt_zpow_iff_right₀ hten).1 (hone.trans_lt hlt)
      omega
    have hhigh : x.ratio.log10 < 16 := by
      have hle := Ratio.pow_log10_le hnum x.den_ratio_pos
      rw [hvalue] at hle
      have hupper : (n : ℚ) < 10 ^ (16 : Int) := by exact_mod_cast hlt
      exact (zpow_lt_zpow_iff_right₀ hten).1 (hle.trans_lt hupper)
    obtain ⟨top, htop⟩ := Int.eq_ofNat_of_zero_le hlow
    have hgrid : x.onGrid? nearest (x.ratio.log10 - (top : Int)) ≠ none := by
      rw [htop, sub_self]
      exact onGrid?_zero_ne_none hx nearest
    obtain ⟨i, hi, d, hfind, hd⟩ := exists_le_of_findSome?_range
      (f := fun i : Nat => x.onGrid? nearest (x.ratio.log10 - i)) (by omega : top < 17) hgrid
    obtain ⟨e, he⟩ : ∃ e : Nat, d.exponent = e :=
      ⟨top - i, by rw [exponent_of_onGrid? hd]; omega⟩
    refine ⟨d.digits * 10 ^ e, ?_⟩
    change (((List.range 17).findSome? fun i : Nat =>
      x.onGrid? nearest (x.ratio.log10 - i)).getD x.exactNumeral).value = _
    rw [hfind, Option.getD_some, Numeral.value, he, zpow_natCast]
    push_cast
    rfl

end Magnitude

namespace Decimal

/-- The digits of the decimal with the power of ten that its places make. -/
def numeral (d : Decimal) : Numeral := ⟨d.mantissa, -d.scale⟩

variable {d : Decimal}

theorem value_ratio (d : Decimal) : Ratio.value ⟨d.mantissa, 10 ^ d.scale⟩ = d.numeral.value := by
  rw [Ratio.value, numeral, Numeral.value, zpow_neg, zpow_natCast, div_eq_mul_inv]
  push_cast
  rfl

theorem mul_pow_strip (m scale : Nat) :
    (strip m scale).1 * 10 ^ (scale - (strip m scale).2) = m := by
  induction scale generalizing m with
  | zero => simp [strip]
  | succ scale ih =>
    simp only [strip]
    split
    · next h =>
      have hle := (strip_le (m / 10) scale).2
      have hsplit : scale + 1 - (strip (m / 10) scale).2 =
          scale - (strip (m / 10) scale).2 + 1 := by omega
      rw [hsplit, Nat.pow_succ, ← Nat.mul_assoc, ih]
      omega
    · simp

theorem value_strip (m scale : Nat) :
    ((strip m scale).1 : ℚ) * 10 ^ (-((strip m scale).2 : Int)) = m * 10 ^ (-(scale : Int)) := by
  have hle := (strip_le m scale).2
  have hsplit : -((strip m scale).2 : Int) = ((scale - (strip m scale).2 : Nat) : Int) + -scale := by
    omega
  rw [hsplit, zpow_add₀ (by decide), ← mul_assoc, zpow_natCast]
  congr 1
  exact_mod_cast mul_pow_strip m scale

theorem value_normalize (d : Decimal) : d.normalize.numeral.value = d.numeral.value :=
  value_strip d.mantissa d.scale

theorem negative_normalize (hzero : d.unsignZero = d) : d.normalize.negative = d.negative := by
  have hsign : d.unsignZero.negative = d.negative := congrArg Decimal.negative hzero
  exact hsign

/-- Only the value is rounded. -/
theorem toDouble_normalize (hzero : d.unsignZero = d) : d.normalize.toDouble = d.toDouble := by
  rw [toDouble_eq, toDouble_eq, negative_normalize hzero, Floating.ofRatio, Floating.ofRatio]
  congr 1
  apply Magnitude.nearest?_congr (Nat.pow_pos (by decide)) (Nat.pow_pos (by decide))
  rw [value_ratio, value_ratio, value_normalize]

theorem exists_toDouble (d : Decimal) : ∃ m, d.toDouble = .finite d.negative m ∧
    Magnitude.nearest? .binary64 ⟨d.mantissa, 10 ^ d.scale⟩ = some m := by
  have hfinite := d.isFinite_toDouble
  rw [toDouble_eq, Floating.ofRatio] at *
  cases h : Magnitude.nearest? .binary64 ⟨d.mantissa, 10 ^ d.scale⟩ with
  | none =>
    rw [h] at hfinite
    cases hfinite
  | some m => exact ⟨m, rfl, rfl⟩

theorem trunc_eq (d : Decimal) :
    d.trunc = Floating.signed d.negative (Ratio.floor ⟨d.mantissa, 10 ^ d.scale⟩) :=
  rfl

end Decimal

namespace Floating

variable {x : Double} {d : Decimal}

/-- A floating-point number with the digits of a decimal is the one that the decimal is rounded
to. -/
theorem eq_toDouble_of_text (h : x.text = d.text) : x = d.toDouble := by
  have hx := ofText?_text x
  rw [h, d.toDouble_text] at hx
  exact (Option.some.inj hx).symm

theorem value_shortest_of_text {negative : Bool} {m : Magnitude .binary64}
    (h : (finite negative m).text = d.text) :
    (m.shortest Ratio.nearestUp).value = d.numeral.value := by
  obtain ⟨p, hp, hvalue⟩ := (m.shortest Ratio.nearestUp).isPositional_plain
  rw [text, hp, d.text_eq, String.ofList_inj] at h
  obtain ⟨-, hchars⟩ := signChars_append_inj p.digitFirst_chars d.positional.digitFirst_chars h
  obtain ⟨hdigits, hplaces⟩ := Positional.value_and_length_of_chars hchars
  rw [← hvalue, hdigits, hplaces, d.value_positional, d.length_places]
  rfl

/-- The whole part is that of the decimal, as far as the precision reaches: a whole number would
not show the digits of a fraction. -/
theorem trunc?_of_text (hzero : d.unsignZero = d) (h : x.text = d.normalize.text)
    (hlt : d.numeral.value < 2 ^ 53) : x.trunc? = some d.trunc := by
  have hden : 0 < 10 ^ d.scale := Nat.pow_pos (by decide)
  obtain ⟨m, hm, hnearest⟩ := d.exists_toDouble
  have hx : x = finite d.negative m := by
    rw [eq_toDouble_of_text h, Decimal.toDouble_normalize hzero, hm]
  rw [hx] at h
  have hvalue := value_shortest_of_text h
  have hround := Magnitude.whole_le_of_nearest? hden (by decide) (by decide)
    (by rwa [Decimal.value_ratio]) hnearest
  have hfloor : m.ratio.floor = Ratio.floor ⟨d.mantissa, 10 ^ d.scale⟩ := by
    apply Magnitude.floor_of_nearest? hden (by decide) (by decide)
      (by rwa [Decimal.value_ratio]) hnearest
    rintro ⟨n, hn⟩
    have hupper := (hround (2 ^ 53)).2 (by
      rw [Decimal.value_ratio]
      exact_mod_cast hlt.le)
    rw [hn, Nat.cast_le] at hupper
    obtain ⟨k, hk⟩ := Magnitude.exists_shortest_of_whole hn (by omega) Ratio.nearestUp
    exact ⟨k, by rw [Decimal.value_ratio, ← d.value_normalize, ← hvalue, hk]⟩
  rw [hx, trunc?, hfloor, Decimal.trunc_eq]

/-- Beyond the precision the floating-point number is as far out of the narrow widths as the
decimal. -/
theorem exists_trunc?_of_large (hlarge : 2 ^ 53 ≤ d.numeral.value) :
    ∃ n, d.toDouble.trunc? = some n ∧ 2 ^ 52 ≤ n.natAbs ∧ 2 ^ 53 ≤ d.trunc.natAbs := by
  have hden : 0 < 10 ^ d.scale := Nat.pow_pos (by decide)
  obtain ⟨m, hm, hnearest⟩ := d.exists_toDouble
  have hvalue := d.value_ratio
  have hnum : 0 < d.mantissa := by
    refine Nat.pos_of_ne_zero fun hzero => ?_
    rw [Decimal.numeral, Numeral.value, hzero, Nat.cast_zero, zero_mul] at hlarge
    norm_num at hlarge
  have hlog : 53 ≤ (Ratio.log2 ⟨d.mantissa, 10 ^ d.scale⟩) := by
    rw [Ratio.le_log2_iff hnum hden, hvalue]
    exact_mod_cast hlarge
  have hclose := Magnitude.abs_value_sub_le (f := .binary64) hnum hden (by decide)
    (by change (-1074 : Int) ≤ _ - 52; omega) hnearest
  rw [hvalue, abs_le] at hclose
  have hfloor : ∀ {r : Ratio} {k : Nat}, 0 < r.den → (2 : ℚ) ^ k ≤ r.value → 2 ^ k ≤ r.floor := by
    intro r k hr h
    rw [Ratio.floor, Nat.le_div_iff_mul_le hr, ← Ratio.le_value_iff hr]
    exact_mod_cast h
  refine ⟨_, by rw [hm, trunc?], ?_, ?_⟩
  · rw [natAbs_signed]
    apply hfloor m.den_ratio_pos
    rw [m.value_ratio]
    have hprecision : (2 : ℚ) ^ (BinaryFormat.precision .binary64) = 2 ^ 53 := rfl
    rw [hprecision] at hclose
    norm_num at hclose hlarge ⊢
    linarith
  · rw [Decimal.trunc_eq, natAbs_signed]
    exact hfloor hden (hvalue ▸ hlarge)

end Floating

end RecordSearch
