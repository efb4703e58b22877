import RecordSearch.Proofs.DecimalLimits
import RecordSearch.Proofs.ExactValues
import RecordSearch.Proofs.Overflow

/-!
Coercion and the ranges of the widths. Every width but one refuses just the numbers whose whole part
is out of its range, and makes of the others numbers in its range. The 32 bit format refuses
nothing: what lies too far beyond its range becomes an infinity.

* `Width.InRange`: the finite values of a width;
* `Number.exists_toDouble`: all numbers that stand for something have a finite double;
* `Width.exists_throughSingle`, `Width.throughSingle_of_le`: where the 32 bit format overflows;
* `Width.coerce?_within_range`: what each width makes of a finite number.
-/

namespace RecordSearch

theorem abs_towardZero_le (q : ℚ) : |(towardZero q : ℚ)| ≤ |q| := by
  rw [towardZero]
  split
  · next hq =>
    have hfloor : (0 : ℚ) ≤ ⌊q⌋ := by exact_mod_cast Int.floor_nonneg.2 hq
    rw [abs_of_nonneg hfloor, abs_of_nonneg hq]
    exact Int.floor_le q
  · next hq =>
    have hle : q ≤ (0 : Int) := by exact_mod_cast (not_le.1 hq).le
    have hceil : (⌈q⌉ : ℚ) ≤ 0 := by exact_mod_cast Int.ceil_le.2 hle
    rw [abs_of_nonpos hceil, abs_of_neg (not_le.1 hq)]
    exact neg_le_neg (Int.le_ceil q)

theorem pow_96_lt_zpow {e : Int} (h : 96 < e) : (2 : ℚ) ^ 96 < 2 ^ e := by
  rw [← zpow_natCast]
  exact zpow_lt_zpow_right₀ (by decide) h

theorem abs_intCast_lt {z : Int} (h : z.natAbs < 2 ^ 96) : |(z : ℚ)| < 2 ^ 96 := by
  rw [← Int.cast_abs, ← Nat.cast_natAbs]
  exact_mod_cast h

theorem Ratio.value_ofNat_natAbs (z : Int) : (Ratio.ofNat z.natAbs).value = |(z : ℚ)| := by
  rw [value, ofNat, Nat.cast_one, div_one, Nat.cast_natAbs, Int.cast_abs]

/-- The nearest double of an integer of up to 96 bits. -/
theorem Floating.exists_nearest_ofInt {z : Int} (h : z.natAbs < 2 ^ 96) :
    ∃ m, (ofInt z : Double) = finite (decide (z < 0)) m ∧
      Magnitude.nearest? .binary64 (Ratio.ofNat z.natAbs) = some m := by
  have hlt : (Ratio.ofNat z.natAbs).value < 2 ^ (1023 : Int) := by
    rw [Ratio.value_ofNat_natAbs]
    exact (abs_intCast_lt h).trans (pow_96_lt_zpow (by decide))
  obtain ⟨m, hm⟩ := Magnitude.exists_nearest (f := .binary64) Nat.one_pos (by decide) (by decide) hlt
  refine ⟨m, ?_, hm⟩
  rw [ofInt, ofRatio, hm]
  rfl

theorem Floating.exists_ofInt {z : Int} (h : z.natAbs < 2 ^ 96) :
    ∃ m, (ofInt z : Double) = finite (decide (z < 0)) m ∧ m.value ≤ 2 * |(z : ℚ)| + 1 := by
  obtain ⟨m, hm, hnearest⟩ := exists_nearest_ofInt h
  refine ⟨m, hm, ?_⟩
  rw [← Ratio.value_ofNat_natAbs]
  exact Magnitude.value_le_of_nearest? Nat.one_pos (by decide) (by decide) hnearest

namespace Decimal

theorem abs_value (d : Decimal) : |d.value| = d.numeral.value := by
  rw [value_eq, Floating.abs_signed_mul]
  rw [numeral, Numeral.value]
  positivity

theorem abs_value_le (d : Decimal) : |d.value| ≤ 2 ^ 96 - 1 := by
  have hmantissa : (d.mantissa : ℚ) ≤ 2 ^ 96 - 1 := by
    rw [le_sub_iff_add_le]
    exact_mod_cast d.mantissa_lt
  refine le_trans ?_ hmantissa
  rw [abs_value, ← value_mul_pow]
  exact le_mul_of_one_le_right (abs_value d ▸ abs_nonneg _) (one_le_pow₀ (by decide))

end Decimal

namespace Number

variable {n : Number} {q : ℚ}

/-- Only floating-point numbers are large, and these are doubles already. -/
theorem exists_toDouble (hn : n.value? = some q) : ∃ negative m, n.toDouble = .finite negative m ∧
    (n = .float (.finite negative m) ∧ q = (Floating.signed negative 1 : Int) * m.value ∨
      |q| < 2 ^ 96 ∧ m.value ≤ 2 * |q| + 1) := by
  cases n with
  | int v =>
    obtain rfl := Option.some.inj hn
    have := v.toInt_lt
    have := v.le_toInt
    have hsize : v.toInt.natAbs < 2 ^ 96 := by omega
    obtain ⟨m, hm, hle⟩ := Floating.exists_ofInt hsize
    exact ⟨_, m, hm, .inr ⟨abs_intCast_lt hsize, hle⟩⟩
  | uint v =>
    obtain rfl := Option.some.inj hn
    have := v.toNat_lt
    have hsize : (v.toNat : Int).natAbs < 2 ^ 96 := by omega
    have hcast : (v.toNat : ℚ) = (v.toNat : Int) := (Int.cast_natCast _).symm
    obtain ⟨m, hm, hle⟩ := Floating.exists_ofInt hsize
    rw [hcast]
    exact ⟨_, m, hm, .inr ⟨abs_intCast_lt hsize, hle⟩⟩
  | float x =>
    cases x with
    | nan | infinity => cases hn
    | finite negative m =>
      rw [value?, Floating.value?_finite] at hn
      exact ⟨negative, m, rfl, .inl ⟨rfl, (Option.some.inj hn).symm⟩⟩
  | decimal d =>
    obtain rfl := Option.some.inj hn
    obtain ⟨m, hm, hnearest⟩ := d.exists_toDouble
    refine ⟨_, m, hm, .inr ⟨d.abs_value_le.trans_lt (by norm_num), ?_⟩⟩
    rw [d.abs_value, ← d.value_ratio]
    exact Magnitude.value_le_of_nearest? (Nat.pow_pos (by decide)) (by decide) (by decide) hnearest

end Number

namespace Width

variable {w : Width} {n : Number} {q : ℚ} {z : Int}

/-- The least finite value. -/
def least : Width → ℚ
  | i8 => -2 ^ 7
  | i16 => -2 ^ 15
  | i32 => -2 ^ 31
  | i64 => -2 ^ 63
  | u8 | u16 | u32 | u64 => 0
  | f32 => -BinaryFormat.binary32.greatest
  | f64 => -BinaryFormat.binary64.greatest
  | decimal => -(2 ^ 96 - 1)

/-- The greatest finite value. -/
def greatest : Width → ℚ
  | i8 => 2 ^ 7 - 1
  | i16 => 2 ^ 15 - 1
  | i32 => 2 ^ 31 - 1
  | i64 => 2 ^ 63 - 1
  | u8 => 2 ^ 8 - 1
  | u16 => 2 ^ 16 - 1
  | u32 => 2 ^ 32 - 1
  | u64 => 2 ^ 64 - 1
  | f32 => BinaryFormat.binary32.greatest
  | f64 => BinaryFormat.binary64.greatest
  | decimal => 2 ^ 96 - 1

def InRange (w : Width) (q : ℚ) : Prop := w.least ≤ q ∧ q ≤ w.greatest

theorem inRange_intCast_iff (hw : w.isWhole = true) : w.InRange z ↔ w.Holds z := by
  cases w with
  | f32 | f64 | decimal => cases hw
  | i8 | i16 | i32 | i64 | u8 | u16 | u32 | u64 =>
    simp only [InRange, least, greatest, Holds, le_sub_iff_add_le, ← Int.add_one_le_iff]
    norm_cast

/-- From here on the 32 bit format has no nearest number. -/
theorem overflow_binary32 :
    BinaryFormat.binary32.greatest + 2 ^ (BinaryFormat.binary32.maxExponent - 1) =
      2 ^ 128 - 2 ^ 103 := by
  norm_num [BinaryFormat.greatest, BinaryFormat.binary32]

theorem throughSingle_of_le {negative : Bool} {m : Magnitude .binary64}
    (h : 2 ^ 128 - 2 ^ 103 ≤ m.value) :
    throughSingle (.finite negative m) = .infinity negative := by
  have hnone : Magnitude.nearest? .binary32 m.ratio = none := by
    rw [Magnitude.nearest?_eq_none_iff m.den_ratio_pos (by decide) (by decide),
      overflow_binary32, m.value_ratio]
    exact h
  rw [throughSingle, Floating.convert, Floating.ofRatio, hnone]
  rfl

theorem exists_throughSingle (negative : Bool) {m : Magnitude .binary64}
    (h : m.value < 2 ^ 128 - 2 ^ 103) : ∃ y, throughSingle (.finite negative m) =
      .finite negative y ∧ y.value ≤ BinaryFormat.binary32.greatest := by
  have hsome : Magnitude.nearest? .binary32 m.ratio ≠ none := by
    rw [Ne, Magnitude.nearest?_eq_none_iff m.den_ratio_pos (by decide) (by decide),
      overflow_binary32, m.value_ratio]
    exact not_le.2 h
  obtain ⟨x, hx⟩ := Option.ne_none_iff_exists'.1 hsome
  obtain ⟨y, hy, hvalue⟩ := Magnitude.exists_nearest_of_narrower (f := .binary64) x (by decide)
    (by decide) (by decide) (by decide) (by decide)
  refine ⟨y, ?_, hvalue ▸ x.value_le_greatest⟩
  rw [throughSingle, Floating.convert, Floating.ofRatio, hx]
  simp only [Floating.ofMagnitude, Floating.convert, Floating.ofRatio, hy]

theorem value?_finite (negative : Bool) (m : Magnitude .binary64) :
    ∃ r, (Number.float (.finite negative m)).value? = some r ∧ |r| = m.value :=
  ⟨_, Floating.value?_finite negative m, Floating.abs_signed_mul negative m.value_nonneg⟩

theorem inRange_towardZero_f64 (hn : n.value? = some q) : f64.InRange (towardZero q) := by
  apply abs_le.1
  refine (abs_towardZero_le q).trans ?_
  obtain ⟨negative, m, -, ⟨-, rfl⟩ | ⟨hlt, -⟩⟩ := Number.exists_toDouble hn
  · rw [Floating.abs_signed_mul negative m.value_nonneg]
    exact m.value_le_greatest
  · have hpow : (2 : ℚ) ^ 96 < 2 ^ (971 : Int) := pow_96_lt_zpow (by decide)
    have hone : (1 : ℚ) ≤ 2 ^ 53 - 1 := by norm_num
    have hgreatest : 1 * (2 : ℚ) ^ (971 : Int) ≤ BinaryFormat.binary64.greatest := by
      rw [BinaryFormat.greatest]
      change _ ≤ (2 ^ 53 - 1) * (2 : ℚ) ^ (971 : Int)
      gcongr
    rw [one_mul] at hgreatest
    exact (hlt.trans hpow).le.trans hgreatest

/-- The 64 bit format takes all finite numbers. -/
theorem exists_coerce?_f64 (hn : n.value? = some q) :
    ∃ m r, f64.coerce? n = some m ∧ m.value? = some r ∧ f64.InRange r := by
  obtain ⟨negative, m, hm, -⟩ := Number.exists_toDouble hn
  obtain ⟨r, hr, habs⟩ := value?_finite negative m
  refine ⟨_, r, by rw [coerce?, hm], hr, abs_le.1 ?_⟩
  rw [habs]
  exact m.value_le_greatest

/-- Up to half a unit beyond its greatest number the 32 bit format rounds into its range. -/
theorem exists_coerce?_f32 (hn : n.value? = some q) (hq : |q| < 2 ^ 128 - 2 ^ 103) :
    ∃ m r, f32.coerce? n = some m ∧ m.value? = some r ∧ f32.InRange r := by
  obtain ⟨negative, m, hm, hcases⟩ := Number.exists_toDouble hn
  have hlt : m.value < 2 ^ 128 - 2 ^ 103 := by
    rcases hcases with ⟨-, rfl⟩ | ⟨hlt, hle⟩
    · rwa [Floating.abs_signed_mul negative m.value_nonneg] at hq
    · norm_num at hlt ⊢
      linarith
  obtain ⟨y, hy, hle⟩ := exists_throughSingle negative hlt
  obtain ⟨r, hr, habs⟩ := value?_finite negative y
  refine ⟨_, r, by rw [coerce?, hm, hy], hr, abs_le.1 ?_⟩
  rw [habs]
  exact hle

/-- Further out it has nothing but infinities, and these are no refusals. -/
theorem coerce?_f32_of_le (hn : n.value? = some q) (hq : 2 ^ 128 - 2 ^ 103 ≤ |q|) :
    f32.coerce? n = some (.float (.infinity (decide (q < 0)))) := by
  obtain ⟨negative, m, hm, ⟨-, rfl⟩ | ⟨hlt, -⟩⟩ := Number.exists_toDouble hn
  · rw [Floating.abs_signed_mul negative m.value_nonneg] at hq
    have hpos : 0 < m.value := lt_of_lt_of_le (by norm_num) hq
    have hsign : decide (((Floating.signed negative 1 : Int) : ℚ) * m.value < 0) = negative := by
      cases negative <;> simp [Floating.signed, hpos, hpos.le]
    rw [coerce?, hm, throughSingle_of_le hq, hsign]
  · norm_num at hlt hq
    linarith

theorem toDecimal?_eq_none_iff (hn : n.value? = some q) : n.toDecimal? = none ↔ 2 ^ 96 ≤ |q| := by
  have hint : ∀ {z : Int}, z.natAbs < 2 ^ 96 → (Decimal.ofInt? z = none ↔ 2 ^ 96 ≤ |(z : ℚ)|) := by
    intro z hz
    have hsome : Decimal.ofInt? z = some ⟨decide (z < 0), z.natAbs, 0, hz, by decide⟩ :=
      dif_pos ⟨hz, by decide⟩
    rw [hsome]
    exact iff_of_false (Option.some_ne_none _) (not_le.2 (abs_intCast_lt hz))
  cases n with
  | int v =>
    obtain rfl := Option.some.inj hn
    have := v.toInt_lt
    have := v.le_toInt
    exact hint (by omega)
  | uint v =>
    obtain rfl := Option.some.inj hn
    have := v.toNat_lt
    have hcast : (v.toNat : ℚ) = (v.toNat : Int) := (Int.cast_natCast _).symm
    rw [hcast]
    exact hint (by omega)
  | float x =>
    cases x with
    | nan | infinity => cases hn
    | finite negative m =>
      rw [Number.value?, Floating.value?_finite] at hn
      obtain rfl := Option.some.inj hn
      rw [Floating.abs_signed_mul negative m.value_nonneg]
      exact Decimal.ofDouble?_eq_none_iff negative m
  | decimal d =>
    obtain rfl := Option.some.inj hn
    have hle := d.abs_value_le
    exact iff_of_false (Option.some_ne_none _) (not_le.2 (by linarith))

theorem inRange_towardZero_decimal_iff : decimal.InRange (towardZero q) ↔ |q| < 2 ^ 96 := by
  have hlow := le_towardZero_iff (q := q) (b := -(2 ^ 96 - 1)) (by decide)
  have hhigh := towardZero_le_iff (q := q) (b := 2 ^ 96 - 1) (by decide)
  have hbounds : decimal.InRange (towardZero q) ↔
      -(2 ^ 96 - 1) ≤ towardZero q ∧ towardZero q ≤ 2 ^ 96 - 1 := by
    simp only [InRange, least, greatest]
    norm_cast
  rw [hbounds, hlow, hhigh, abs_lt]
  norm_num

theorem exists_store_of_coerce? {m : Number} (hw : w.isWhole = true) (hn : n.value? = some q)
    (hm : w.coerce? n = some m) : w.Holds (towardZero q) ∧ w.store (towardZero q) = m := by
  by_cases hz : w.Holds (towardZero q)
  · rw [coerce?_of_value hn hz] at hm
    exact ⟨hz, Option.some.inj hm⟩
  · rw [coerce?_eq_none_of_value hw fun r hr => Option.some.inj (hn.symm.trans hr) ▸ hz] at hm
    cases hm

/-- What a width but the 32 bit format makes of a finite number, and when it refuses it. -/
theorem coerce?_eq_none_iff_of_ne_f32 (hn : n.value? = some q) (hw : w ≠ .f32) :
    w.coerce? n = none ↔ ¬w.InRange (towardZero q) := by
  cases w with
  | f32 => exact absurd rfl hw
  | f64 =>
    obtain ⟨m, r, hm, -⟩ := exists_coerce?_f64 hn
    rw [hm]
    exact iff_of_false (Option.some_ne_none _) (not_not.2 (inRange_towardZero_f64 hn))
  | decimal =>
    rw [coerce?, Option.map_eq_none_iff, toDecimal?_eq_none_iff hn, inRange_towardZero_decimal_iff,
      not_lt]
  | i8 | i16 | i32 | i64 | u8 | u16 | u32 | u64 =>
    rw [inRange_intCast_iff rfl]
    constructor
    · intro hnone hz
      rw [coerce?_of_value hn hz] at hnone
      cases hnone
    · intro hz
      exact coerce?_eq_none_of_value rfl fun r hr => Option.some.inj (hn.symm.trans hr) ▸ hz

theorem inRange_of_coerce? {m : Number} (hn : n.value? = some q) (hm : w.coerce? n = some m)
    (hq : w = .f32 → |q| < 2 ^ 128 - 2 ^ 103) : ∃ r, m.value? = some r ∧ w.InRange r := by
  cases w with
  | f32 =>
    obtain ⟨y, r, hy, hr, hrange⟩ := exists_coerce?_f32 hn (hq rfl)
    obtain rfl := Option.some.inj (hm.symm.trans hy)
    exact ⟨r, hr, hrange⟩
  | f64 =>
    obtain ⟨y, r, hy, hr, hrange⟩ := exists_coerce?_f64 hn
    obtain rfl := Option.some.inj (hm.symm.trans hy)
    exact ⟨r, hr, hrange⟩
  | decimal =>
    obtain ⟨d, -, rfl⟩ := Option.map_eq_some_iff.1 hm
    exact ⟨_, rfl, abs_le.1 d.abs_value_le⟩
  | i8 | i16 | i32 | i64 | u8 | u16 | u32 | u64 =>
    obtain ⟨hz, rfl⟩ := exists_store_of_coerce? rfl hn hm
    exact ⟨_, value?_store hz, (inRange_intCast_iff rfl).2 hz⟩

/-- **Coercion stays inside the width**, but for the 32 bit format. A finite number is refused just
if its whole part is out of range, and what is made of it is finite and in range. The 32 bit format
rounds into its range up to half a unit beyond it, and takes all numbers further out for
infinities. -/
theorem coerce?_within_range (hn : n.value? = some q) :
    (w ≠ .f32 → (w.coerce? n = none ↔ ¬w.InRange (towardZero q))) ∧
    (∀ m, w.coerce? n = some m → (w = .f32 → |q| < 2 ^ 128 - 2 ^ 103) →
      ∃ r, m.value? = some r ∧ w.InRange r) ∧
    (w = .f32 → 2 ^ 128 - 2 ^ 103 ≤ |q| →
      w.coerce? n = some (.float (.infinity (decide (q < 0))))) := by
  refine ⟨coerce?_eq_none_iff_of_ne_f32 hn, ?_, ?_⟩
  · intro m hm hq
    exact inRange_of_coerce? hn hm hq
  · rintro rfl hq
    exact coerce?_f32_of_le hn hq

/-- A fraction beyond the least signed byte that keeps its whole part, and is no unsigned one. -/
theorem coerce?_within_range_bytes :
    let price : Number := .decimal ⟨true, 12850, 2, by decide, by decide⟩
    (∃ m r, Width.i8.coerce? price = some m ∧ m.value? = some r ∧ Width.i8.InRange r) ∧
      Width.u8.coerce? price = none := by
  intro price
  have hvalue : price.value? = some (-257 / 2) := by
    simp only [price, Number.value?, Decimal.value, Floating.signed]
    norm_num
  have hwhole : towardZero (-257 / 2) = -128 := by norm_num [towardZero]
  obtain ⟨hnone, hrange, -⟩ := coerce?_within_range (w := .i8) hvalue
  obtain ⟨hnone', -, -⟩ := coerce?_within_range (w := .u8) hvalue
  constructor
  · have hsome : Width.i8.coerce? price ≠ none := by
      rw [Ne, hnone (by decide), hwhole, not_not]
      norm_num [InRange, least, greatest]
    obtain ⟨m, hm⟩ := Option.ne_none_iff_exists'.1 hsome
    obtain ⟨r, hr, hin⟩ := hrange m hm fun h => absurd h (by decide)
    exact ⟨m, r, hm, hr, hin⟩
  · rw [hnone' (by decide), hwhole]
    norm_num [InRange, least, greatest]

/-- `2 ^ 128` is beyond the range of the 32 bit format, which takes it for an infinity. -/
theorem coerce?_leaves_range :
    let n : Number := .float (.finite false ⟨2 ^ 52, 76, by decide⟩)
    n.value? = some (2 ^ 128) ∧ ¬Width.f32.InRange (towardZero (2 ^ 128)) ∧
      Width.f32.coerce? n = some (.float (.infinity false)) := by
  intro n
  have hvalue : n.value? = some (2 ^ 128) := by
    simp only [n, Number.value?, Floating.value?, Floating.signed]
    norm_num
  refine ⟨hvalue, ?_, ?_⟩
  · have hwhole : towardZero (2 ^ 128) = 2 ^ 128 := by
      norm_num [towardZero]
    rw [hwhole]
    norm_num [InRange, greatest, BinaryFormat.greatest, BinaryFormat.binary32]
  · rw [coerce?_f32_of_le hvalue (by norm_num)]
    norm_num

end Width

end RecordSearch
