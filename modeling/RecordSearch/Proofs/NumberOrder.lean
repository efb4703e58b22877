import RecordSearch.Proofs.ClauseText
import RecordSearch.Proofs.RoundingOrder
import RecordSearch.Proofs.WidthRanges

/-!
The order of numbers of mixed representations. Integers and decimals compare by their exact values,
and a floating-point number compares with any other as a double. Rounding to doubles keeps the
order, so the two ways to compare go together, but for one thing: two exact numbers may be rounded
to one double, which is then equal to both.

* `Floating.compare?_eq_compare_key`: doubles compare as integers;
* `Number.compare?_of_exact`, `Number.compare?_of_float`: the two ways to compare;
* `Number.key_le_of_value_le`: rounding to doubles keeps the order;
* `Number.compare?_consistent`: how far the comparison is an order.
-/

namespace RecordSearch

/-- More multiples of the least magnitude than any magnitude of the format has. -/
def BinaryFormat.unitBound (f : BinaryFormat) : Nat :=
  2 ^ f.precision * 2 ^ (f.maxExponent - f.minExponent).toNat

theorem BinaryFormat.unitBound_pos (f : BinaryFormat) : 0 < f.unitBound :=
  Nat.mul_pos (Nat.pow_pos (by decide)) (Nat.pow_pos (by decide))

theorem Magnitude.units_lt {f : BinaryFormat} (x : Magnitude f) : x.units < f.unitBound := by
  obtain ⟨hmantissa, -, hmax, -⟩ := BinaryFormat.fits_iff.1 x.fits
  rw [units, Nat.pow_eq, BinaryFormat.unitBound]
  calc x.mantissa * 2 ^ (x.exponent - f.minExponent).toNat
      ≤ x.mantissa * 2 ^ (f.maxExponent - f.minExponent).toNat :=
        Nat.mul_le_mul_left _ (Nat.pow_le_pow_right (by decide) (by omega))
    _ < 2 ^ f.precision * 2 ^ (f.maxExponent - f.minExponent).toNat :=
        Nat.mul_lt_mul_of_pos_right hmantissa (Nat.pow_pos (by decide))

namespace Floating

variable {f : BinaryFormat} {x y : Floating f}

/-- The place in the order: the multiple of the least magnitude, and beyond all of these the
infinities. -/
def key : Floating f → Int
  | nan => 0
  | infinity negative => signed negative f.unitBound
  | finite negative m => signed negative m.units

theorem compare_signed (a b : Bool) {n : Nat} (h : 0 < n) :
    compare (signed a 1) (signed b 1) = compare (signed a n) (signed b n) := by
  have hn : (0 : Int) < n := by exact_mod_cast h
  have hmul : ∀ negative, signed negative n = signed negative 1 * n := by
    intro negative
    rw [← signed_mul, Nat.one_mul]
  rw [hmul, hmul, ← cmp_eq_compare, ← cmp_eq_compare, cmp_mul_pos_right hn]

/-- Infinities lie beyond what is finite, on the side of their sign. -/
theorem compare_key_infinity (a b : Bool) (m : Magnitude f) :
    compare (infinity a : Floating f).key (finite b m).key = if a then .lt else .gt := by
  have hlt := m.units_lt
  cases a with
  | true =>
    rw [if_pos rfl, compare_lt_iff_lt]
    cases b <;> simp only [key, signed, if_true, Bool.false_eq_true, if_false] <;> omega
  | false =>
    rw [if_neg Bool.false_ne_true, compare_gt_iff_gt]
    cases b <;> simp only [key, signed, if_true, Bool.false_eq_true, if_false] <;> omega

theorem compare?_eq_compare_key (hx : x ≠ nan) (hy : y ≠ nan) :
    x.compare? y = some (compare x.key y.key) := by
  cases x with
  | nan => exact absurd rfl hx
  | infinity a =>
    cases y with
    | nan => exact absurd rfl hy
    | infinity b => rw [compare?, key, key, compare_signed a b f.unitBound_pos]
    | finite b m => rw [compare?, compare_key_infinity]
  | finite a m =>
    cases y with
    | nan => exact absurd rfl hy
    | infinity b =>
      rw [compare?, ← Int.compare_swap, compare_key_infinity]
      cases b <;> rfl
    | finite b n => rfl

/-- Rounding keeps the order of quotients with a sign. -/
theorem key_le_of_nearest? {s t : Bool} {q r : Ratio} {m n : Magnitude .binary64}
    (hq : 0 < q.den) (hr : 0 < r.den) (hm : Magnitude.nearest? .binary64 q = some m)
    (hn : Magnitude.nearest? .binary64 r = some n)
    (h : ((signed s 1 : Int) : ℚ) * q.value ≤ ((signed t 1 : Int) : ℚ) * r.value) :
    (finite s m).key ≤ (finite t n).key := by
  have hq' := q.value_nonneg
  have hr' := r.value_nonneg
  rw [key, key]
  cases s with
  | false =>
    cases t with
    | false =>
      simp only [signed, Bool.false_eq_true, if_false, Nat.cast_one, Int.cast_one, one_mul,
        Nat.cast_le] at h ⊢
      exact Magnitude.units_le_of_nearest? hq hr (by decide) hm hn h
    | true =>
      simp only [signed, Bool.false_eq_true, if_false, if_true, Nat.cast_one, Int.cast_neg,
        Int.cast_one, neg_mul, one_mul] at h
      have hzero := Magnitude.units_of_nearest?_zero hq (by decide) hm (by linarith)
      have hzero' := Magnitude.units_of_nearest?_zero hr (by decide) hn (by linarith)
      rw [hzero, hzero', signed_zero, signed_zero]
  | true =>
    cases t with
    | false =>
      simp only [signed, if_true, Bool.false_eq_true, if_false]
      omega
    | true =>
      simp only [signed, if_true, Nat.cast_one, Int.cast_neg, Int.cast_one, neg_mul, one_mul,
        neg_le_neg_iff, Nat.cast_le] at h ⊢
      exact Magnitude.units_le_of_nearest? hr hq (by decide) hn hm h

end Floating

namespace Number

variable {a b c : Number} {p q : ℚ}

theorem toDouble_ne_nan (h : a ≠ .float .nan) : a.toDouble ≠ .nan := by
  have hrounded : ∀ negative (r : Ratio), (Floating.ofRatio negative r : Double) ≠ .nan := by
    intro negative r
    rw [Floating.ofRatio]
    cases Magnitude.nearest? .binary64 r <;> simp [Floating.ofMagnitude]
  cases a with
  | int v => exact hrounded _ _
  | uint v => exact hrounded _ _
  | float x => exact fun hx => h (congrArg float hx)
  | decimal d => exact hrounded _ _

/-- A floating-point number takes any other for a double. -/
theorem compare?_of_float (h : a.representation = .float ∨ b.representation = .float) :
    a.compare? b = a.toDouble.compare? b.toDouble := by
  cases a <;> cases b <;> first | rfl | simp [representation] at h

/-- The place of the number as a double. -/
def key (n : Number) : Int := n.toDouble.key

theorem compare?_eq_compare_key (ha : a ≠ .float .nan) (hb : b ≠ .float .nan)
    (h : a.representation = .float ∨ b.representation = .float) :
    a.compare? b = some (compare a.key b.key) := by
  rw [compare?_of_float h, key, key,
    Floating.compare?_eq_compare_key (toDouble_ne_nan ha) (toDouble_ne_nan hb)]

end Number

theorem compare_intCast (m n : Int) : compare (m : ℚ) n = compare m n := by
  rw [← cmp_eq_compare, ← cmp_eq_compare, Int.cast_strictMono.cmp_map_eq]

namespace Decimal

theorem value_eq_units_div (d : Decimal) : d.value = d.units / 10 ^ 28 := by
  have hsplit : (10 : ℚ) ^ 28 = 10 ^ (28 - d.scale) * 10 ^ d.scale := by
    rw [← pow_add, Nat.sub_add_cancel d.scale_le]
  rw [value, units, Floating.signed_mul, hsplit, Nat.pow_eq]
  push_cast
  rw [mul_comm (10 ^ (28 - d.scale) : ℚ), mul_div_mul_right _ _ (by positivity)]

theorem order_eq_compare_value (d e : Decimal) : d.order e = compare d.value e.value := by
  rw [order, ← compare_intCast, value_eq_units_div, value_eq_units_div, div_eq_mul_inv,
    div_eq_mul_inv, ← cmp_eq_compare, ← cmp_eq_compare, cmp_mul_pos_right (by positivity)]

end Decimal

namespace Number

variable {a b c : Number} {p q : ℚ}

/-- An integer is a decimal without places. -/
theorem exists_ofInt_value {z : Int} (h : z.natAbs < 2 ^ 96) :
    ∃ d, Decimal.ofInt? z = some d ∧ (z : ℚ) = d.value := by
  obtain ⟨d, hd, hunits⟩ := Decimal.exists_ofInt h
  refine ⟨d, hd, ?_⟩
  rw [Decimal.value_eq_units_div, hunits, Int.cast_mul, Int.cast_pow, Int.cast_ofNat,
    mul_div_cancel_right₀ _ (by positivity)]

/-- What is no floating-point number is exactly a decimal. -/
theorem exists_toDecimal (h : a.representation ≠ .float) :
    ∃ d, a.toDecimal? = some d ∧ a.value? = some d.value := by
  cases a with
  | int v =>
    have := v.toInt_lt
    have := v.le_toInt
    obtain ⟨d, hd, hvalue⟩ := exists_ofInt_value (z := v.toInt) (by omega)
    exact ⟨d, hd, congrArg some hvalue⟩
  | uint v =>
    have := v.toNat_lt
    obtain ⟨d, hd, hvalue⟩ := exists_ofInt_value (z := v.toNat) (by omega)
    rw [Int.cast_natCast] at hvalue
    exact ⟨d, hd, congrArg some hvalue⟩
  | float x => exact absurd rfl h
  | decimal d => exact ⟨d, rfl, rfl⟩

theorem exists_compareDecimals (ha : a.representation ≠ .float) (hb : b.representation ≠ .float) :
    ∃ p q, a.value? = some p ∧ b.value? = some q ∧ compareDecimals a b = some (compare p q) := by
  obtain ⟨d, hd, hp⟩ := exists_toDecimal ha
  obtain ⟨e, he, hq⟩ := exists_toDecimal hb
  refine ⟨_, _, hp, hq, ?_⟩
  rw [compareDecimals, hd, he, ← Decimal.order_eq_compare_value]
  rfl

/-- Without a floating-point number the comparison is exact. -/
theorem compare?_of_exact (ha : a.representation ≠ .float) (hb : b.representation ≠ .float) :
    ∃ p q, a.value? = some p ∧ b.value? = some q ∧ a.compare? b = some (compare p q) := by
  cases a with
  | float => exact absurd rfl ha
  | int v =>
    cases b with
    | float => exact absurd rfl hb
    | int w => exact ⟨_, _, rfl, rfl, by rw [compare?, compare_intCast]⟩
    | uint w =>
      refine ⟨_, _, rfl, rfl, ?_⟩
      rw [← Int.cast_natCast, compare_intCast]
      rfl
    | decimal e => exact exists_compareDecimals ha hb
  | uint v =>
    cases b with
    | float => exact absurd rfl hb
    | int w =>
      refine ⟨_, _, rfl, rfl, ?_⟩
      rw [← Int.cast_natCast, compare_intCast]
      rfl
    | uint w =>
      refine ⟨_, _, rfl, rfl, ?_⟩
      rw [compare?, ← compare_natCast, ← compare_intCast, Int.cast_natCast, Int.cast_natCast]
    | decimal e => exact exists_compareDecimals ha hb
  | decimal d =>
    cases b with
    | float => exact absurd rfl hb
    | int | uint | decimal => exact exists_compareDecimals ha hb

/-- The double of a number that is none is rounded from its value. -/
theorem exists_nearest_toDouble (h : a.representation ≠ .float) :
    ∃ negative r m, 0 < r.den ∧
      a.value? = some (((Floating.signed negative 1 : Int) : ℚ) * r.value) ∧
      Magnitude.nearest? .binary64 r = some m ∧ a.toDouble = .finite negative m := by
  have hint : ∀ z : Int, z.natAbs < 2 ^ 96 → ∃ negative r m, 0 < r.den ∧
      (z : ℚ) = ((Floating.signed negative 1 : Int) : ℚ) * r.value ∧
      Magnitude.nearest? .binary64 r = some m ∧ Floating.ofInt z = .finite negative m := by
    intro z hz
    obtain ⟨m, hm, hnearest⟩ := Floating.exists_nearest_ofInt hz
    refine ⟨_, _, m, Nat.one_pos, ?_, hnearest, hm⟩
    rw [Ratio.value, Ratio.ofNat, Nat.cast_one, div_one, ← Floating.cast_signed,
      Floating.signed_natAbs]
  cases a with
  | int v =>
    have := v.toInt_lt
    have := v.le_toInt
    obtain ⟨negative, r, m, hd, hvalue, hm⟩ := hint v.toInt (by omega)
    exact ⟨negative, r, m, hd, congrArg some hvalue, hm⟩
  | uint v =>
    have := v.toNat_lt
    obtain ⟨negative, r, m, hd, hvalue, hm⟩ := hint v.toNat (by omega)
    rw [Int.cast_natCast] at hvalue
    exact ⟨negative, r, m, hd, congrArg some hvalue, hm⟩
  | float x => exact absurd rfl h
  | decimal d =>
    obtain ⟨m, hm, hnearest⟩ := d.exists_toDouble
    refine ⟨_, _, m, Nat.pow_pos (by decide), ?_, hnearest, hm⟩
    rw [value?, Decimal.value_eq, Decimal.value_ratio]

/-- **Rounding to doubles keeps the order** of exact numbers. -/
theorem key_le_of_value_le (ha : a.representation ≠ .float) (hb : b.representation ≠ .float)
    (hp : a.value? = some p) (hq : b.value? = some q) (h : p ≤ q) : a.key ≤ b.key := by
  obtain ⟨s, r, m, hr, hvalue, hm, hdouble⟩ := exists_nearest_toDouble ha
  obtain ⟨t, u, n, hu, hvalue', hn, hdouble'⟩ := exists_nearest_toDouble hb
  obtain rfl := Option.some.inj (hp.symm.trans hvalue)
  obtain rfl := Option.some.inj (hq.symm.trans hvalue')
  rw [key, key, hdouble, hdouble']
  exact Floating.key_le_of_nearest? hr hu hm hn h

/-- Less or equal. -/
def AtMost (a b : Number) : Prop := a.compare? b = some .lt ∨ a.compare? b = some .eq

theorem atMost_iff_of_compare? {α : Type*} [LinearOrder α] {x y : α}
    (h : a.compare? b = some (compare x y)) : a.AtMost b ↔ x ≤ y := by
  rw [AtMost, h, Option.some.injEq, Option.some.injEq, compare_lt_iff_lt, compare_eq_iff_eq,
    le_iff_lt_or_eq]

theorem compare?_of_values (ha : a.representation ≠ .float) (hb : b.representation ≠ .float)
    (hp : a.value? = some p) (hq : b.value? = some q) : a.compare? b = some (compare p q) := by
  obtain ⟨p', q', hp', hq', h⟩ := compare?_of_exact ha hb
  obtain rfl := Option.some.inj (hp.symm.trans hp')
  obtain rfl := Option.some.inj (hq.symm.trans hq')
  exact h

theorem exists_value (h : a.representation ≠ .float) : ∃ p, a.value? = some p :=
  (exists_toDecimal h).elim fun d hd => ⟨d.value, hd.2⟩

theorem compare?_swap (ha : a ≠ .float .nan) (hb : b ≠ .float .nan) :
    ∃ order, a.compare? b = some order ∧ b.compare? a = some order.swap := by
  by_cases hfloat : a.representation = .float ∨ b.representation = .float
  · refine ⟨_, compare?_eq_compare_key ha hb hfloat, ?_⟩
    rw [compare?_eq_compare_key hb ha hfloat.symm, Int.compare_swap]
  · obtain ⟨ha', hb'⟩ := not_or.1 hfloat
    obtain ⟨p, hp⟩ := exists_value ha'
    obtain ⟨q, hq⟩ := exists_value hb'
    refine ⟨_, compare?_of_values ha' hb' hp hq, ?_⟩
    rw [compare?_of_values hb' ha' hq hp, Std.OrientedOrd.eq_swap]

theorem beq_iff_atMost (ha : a ≠ .float .nan) (hb : b ≠ .float .nan) :
    (a == b) = true ↔ a.AtMost b ∧ b.AtMost a := by
  obtain ⟨order, h, hswap⟩ := compare?_swap ha hb
  rw [beq_iff, AtMost, AtMost, h, hswap]
  cases order <;> decide

/-- However two numbers compare, their doubles are in that order. -/
theorem AtMost.key_le (ha : a ≠ .float .nan) (hb : b ≠ .float .nan) (h : a.AtMost b) :
    a.key ≤ b.key := by
  by_cases hfloat : a.representation = .float ∨ b.representation = .float
  · exact (atMost_iff_of_compare? (compare?_eq_compare_key ha hb hfloat)).1 h
  · obtain ⟨ha', hb'⟩ := not_or.1 hfloat
    obtain ⟨p, hp⟩ := exists_value ha'
    obtain ⟨q, hq⟩ := exists_value hb'
    exact key_le_of_value_le ha' hb' hp hq
      ((atMost_iff_of_compare? (compare?_of_values ha' hb' hp hq)).1 h)

/-- A floating-point number is equal to two that are compared by their values. -/
structure Blurs (b a c : Number) : Prop where
  between : b.representation = .float
  left : a.representation ≠ .float
  right : c.representation ≠ .float
  left_equal : (a == b) = true
  equal_right : (b == c) = true

theorem Blurs.symm (ha : a ≠ .float .nan) (hb : b ≠ .float .nan) (hc : c ≠ .float .nan)
    (h : b.Blurs a c) : b.Blurs c a where
  between := h.between
  left := h.right
  right := h.left
  left_equal := (beq_iff_atMost hc hb).2 ((beq_iff_atMost hb hc).1 h.equal_right).symm
  equal_right := (beq_iff_atMost hb ha).2 ((beq_iff_atMost ha hb).1 h.left_equal).symm

theorem AtMost.trans (ha : a ≠ .float .nan) (hb : b ≠ .float .nan) (hc : c ≠ .float .nan)
    (hblurs : ¬ b.Blurs a c) (hab : a.AtMost b) (hbc : b.AtMost c) : a.AtMost c := by
  have hkab := hab.key_le ha hb
  have hkbc := hbc.key_le hb hc
  by_cases hfloat : a.representation = .float ∨ c.representation = .float
  · exact (atMost_iff_of_compare? (compare?_eq_compare_key ha hc hfloat)).2 (hkab.trans hkbc)
  obtain ⟨ha', hc'⟩ := not_or.1 hfloat
  obtain ⟨p, hp⟩ := exists_value ha'
  obtain ⟨q, hq⟩ := exists_value hc'
  rw [atMost_iff_of_compare? (compare?_of_values ha' hc' hp hq)]
  by_cases hb' : b.representation = .float
  · -- Against the order of the values all three have one double, and the two are equal to it.
    by_contra hlt
    have hkca := key_le_of_value_le hc' ha' hq hp (not_le.1 hlt).le
    have hba := (atMost_iff_of_compare? (compare?_eq_compare_key hb ha (.inl hb'))).2
      (hkbc.trans hkca)
    have hcb := (atMost_iff_of_compare? (compare?_eq_compare_key hc hb (.inr hb'))).2
      (hkca.trans hkab)
    exact hblurs ⟨hb', ha', hc', (beq_iff_atMost ha hb).2 ⟨hab, hba⟩,
      (beq_iff_atMost hb hc).2 ⟨hbc, hcb⟩⟩
  · obtain ⟨r, hr⟩ := exists_value hb'
    have hpr := (atMost_iff_of_compare? (compare?_of_values ha' hb' hp hr)).1 hab
    have hrq := (atMost_iff_of_compare? (compare?_of_values hb' hc' hr hq)).1 hbc
    exact hpr.trans hrq

/-- **How far the comparison is an order.** Of numbers that are not NaN each compares with each, the
other way round in reverse, and each equals itself. At most and equal are transitive, unless a
floating-point number stands between two others and equals both: these compare by their values. -/
theorem compare?_consistent (ha : a ≠ .float .nan) (hb : b ≠ .float .nan) (hc : c ≠ .float .nan) :
    (∃ order, a.compare? b = some order ∧ b.compare? a = some order.swap) ∧
      (a == a) = true ∧
      (¬ b.Blurs a c → (a.AtMost b → b.AtMost c → a.AtMost c) ∧
        ((a == b) = true → (b == c) = true → (a == c) = true)) ∧
      (b.Blurs a c → ∃ p q, a.value? = some p ∧ c.value? = some q ∧
        a.compare? c = some (compare p q)) := by
  refine ⟨compare?_swap ha hb, ?reflexive, ?transitive, ?blurred⟩
  case reflexive =>
    obtain ⟨order, h, hswap⟩ := compare?_swap ha ha
    rw [beq_iff, h]
    cases order <;> cases h.symm.trans hswap
    rfl
  case transitive =>
    intro hblurs
    refine ⟨AtMost.trans ha hb hc hblurs, ?_⟩
    intro hab hbc
    obtain ⟨hab, hba⟩ := (beq_iff_atMost ha hb).1 hab
    obtain ⟨hbc, hcb⟩ := (beq_iff_atMost hb hc).1 hbc
    have hblurs' : ¬ b.Blurs c a := fun h => hblurs (h.symm hc hb ha)
    exact (beq_iff_atMost ha hc).2
      ⟨hab.trans ha hb hc hblurs hbc, hcb.trans hc hb ha hblurs' hba⟩
  case blurred =>
    intro h
    exact compare?_of_exact h.left h.right

/-- Two to the power of 53, above which doubles skip whole numbers. -/
def twoPow53 : Number := .float (.finite false ⟨2 ^ 52, 1, by decide⟩)

/-- A decimal and an integer around that double. -/
theorem compare?_consistent_twoPow53 :
    let a : Number := .decimal ⟨false, 90071992547409925, 1, by decide, by decide⟩
    let c : Number := .uint 9007199254740994
    (a ≠ .float .nan ∧ twoPow53 ≠ .float .nan ∧ c ≠ .float .nan) ∧
      (∃ order, a.compare? twoPow53 = some order ∧ twoPow53.compare? a = some order.swap) ∧
      (a == a) = true ∧
      (¬ twoPow53.Blurs a c → (a.AtMost twoPow53 → twoPow53.AtMost c → a.AtMost c) ∧
        ((a == twoPow53) = true → (twoPow53 == c) = true → (a == c) = true)) ∧
      (twoPow53.Blurs a c → ∃ p q, a.value? = some p ∧ c.value? = some q ∧
        a.compare? c = some (compare p q)) := by
  intro a c
  have h : a ≠ .float .nan ∧ twoPow53 ≠ .float .nan ∧ c ≠ .float .nan :=
    ⟨by simp [a], by simp [twoPow53], by simp [c]⟩
  exact ⟨h, compare?_consistent h.1 h.2.1 h.2.2⟩

/-- Two integers equal to one double, of which the first is greater than the second. -/
theorem twoPow53_equals_neighbours :
    let a : Number := .int 9007199254740993
    let c : Number := .int 9007199254740992
    (a == twoPow53) = true ∧ (twoPow53 == c) = true ∧ a.AtMost twoPow53 ∧ twoPow53.AtMost c ∧
      a.compare? c = some .gt ∧ (a == c) = false ∧ ¬ a.AtMost c := by
  intro a c
  have hac : a.compare? c = some .gt := by rfl
  have hab : a.compare? twoPow53 = some .eq := by decide +kernel
  have hbc : twoPow53.compare? c = some .eq := by decide +kernel
  refine ⟨beq_iff.2 hab, beq_iff.2 hbc, .inr hab, .inr hbc, hac, by rfl, ?_⟩
  rw [AtMost, hac]
  decide

end Number

end RecordSearch
