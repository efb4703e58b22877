import RecordSearch.Proofs.Coercion
import RecordSearch.Proofs.WholeDigits
import Mathlib.Data.Rat.Floor

/-!
The rational that a number stands for, and its whole part.

* `Number.value?`: of the four representations only floating-point numbers can stand for nothing;
* `Number.whole?_of_value`: the whole part of a number is that of its rational, up to 128 bits;
* `Width.coerce?_eq_store`: what a width of whole numbers makes of a whole part in its range.
-/

namespace RecordSearch

/-- The whole part, rounded toward zero. -/
def towardZero (q : ℚ) : Int := if 0 ≤ q then ⌊q⌋ else ⌈q⌉

theorem compare_natCast (m n : Nat) : compare (m : Int) n = compare m n := by
  simp only [compare, compareOfLessAndEq, Int.ofNat_lt, Int.natCast_inj]

section TowardZero

variable {q : ℚ} {b : Int}

theorem towardZero_intCast (n : Int) : towardZero n = n := by
  rw [towardZero, Int.floor_intCast, Int.ceil_intCast, ite_self]

theorem towardZero_neg (q : ℚ) : towardZero (-q) = -towardZero q := by
  rcases lt_trichotomy q 0 with hq | rfl | hq
  · rw [towardZero, towardZero, if_pos (by linarith), if_neg (by linarith), Int.floor_neg]
  · rfl
  · rw [towardZero, towardZero, if_neg (by linarith), if_pos hq.le, Int.ceil_neg]

theorem towardZero_le_iff (hb : 0 ≤ b) : towardZero q ≤ b ↔ q < b + 1 := by
  have hb' : (0 : ℚ) ≤ b := by exact_mod_cast hb
  rw [towardZero]
  split
  · rw [← Int.lt_add_one_iff, Int.floor_lt]
    push_cast
    rfl
  · next hq =>
    have hle : (q : ℚ) ≤ b := by linarith
    exact iff_of_true (Int.ceil_le.2 hle) (by linarith)

theorem le_towardZero_iff (hb : b ≤ 0) : b ≤ towardZero q ↔ b - 1 < q := by
  have hneg := towardZero_le_iff (q := -q) (b := -b) (by omega)
  rw [towardZero_neg] at hneg
  rw [← Int.neg_le_neg_iff, hneg]
  push_cast
  constructor <;> intro h <;> linarith

end TowardZero

theorem Floating.cast_signed (negative : Bool) (n : Nat) :
    ((signed negative n : Int) : ℚ) = (signed negative 1 : Int) * n := by
  cases negative <;> simp [signed]

theorem Floating.abs_signed_mul (negative : Bool) {q : ℚ} (hq : 0 ≤ q) :
    |((signed negative 1 : Int) : ℚ) * q| = q := by
  cases negative <;> simp [signed, abs_of_nonneg hq]

theorem Ratio.towardZero_value {r : Ratio} (hd : 0 < r.den) (negative : Bool) :
    towardZero ((Floating.signed negative 1 : Int) * r.value) =
      Floating.signed negative r.floor := by
  have hfloor : towardZero r.value = r.floor := by
    rw [towardZero, if_pos r.value_nonneg, Int.floor_eq_iff]
    exact_mod_cast (floor_eq_iff hd).1 rfl
  cases negative with
  | false => simp [Floating.signed, hfloor]
  | true => simp [Floating.signed, towardZero_neg, hfloor]

namespace Floating

variable {f : BinaryFormat} {x : Floating f} {q : ℚ}

/-- What a finite number stands for. -/
def value? : Floating f → Option ℚ
  | finite negative m => some ((signed negative m.mantissa : Int) * 2 ^ m.exponent)
  | _ => none

theorem value?_finite (negative : Bool) (m : Magnitude f) :
    (finite negative m).value? = some ((signed negative 1 : Int) * m.value) := by
  rw [value?, cast_signed, Magnitude.value, mul_assoc]

theorem trunc?_eq (x : Floating f) : x.trunc? = x.value?.map towardZero := by
  cases x with
  | nan => rfl
  | infinity => rfl
  | finite negative m =>
    rw [value?_finite, ← Magnitude.value_ratio, Option.map_some,
      Ratio.towardZero_value m.den_ratio_pos, trunc?]

end Floating

namespace Decimal

/-- What the decimal stands for. -/
def value (d : Decimal) : ℚ := (Floating.signed d.negative d.mantissa : Int) / 10 ^ d.scale

theorem value_eq (d : Decimal) :
    d.value = (Floating.signed d.negative 1 : Int) * d.numeral.value := by
  rw [value, Floating.cast_signed, ← value_ratio, Ratio.value, mul_div_assoc]
  push_cast
  rfl

theorem trunc_eq_towardZero (d : Decimal) : d.trunc = towardZero d.value := by
  rw [value_eq, ← value_ratio, Ratio.towardZero_value (Nat.pow_pos (by decide)), trunc_eq]

end Decimal

namespace Number

variable {n : Number} {q : ℚ}

/-- What a number stands for, exactly. -/
def value? : Number → Option ℚ
  | int v => some v.toInt
  | uint v => some v.toNat
  | float x => x.value?
  | decimal d => some d.value

/-- **Whole parts are exact** up to 128 bits. -/
theorem whole?_of_value (h : n.value? = some q) :
    n.whole? = some (clampWhole (towardZero q)) := by
  cases n with
  | int v =>
    obtain rfl := Option.some.inj h
    have := v.toInt_lt
    have := v.le_toInt
    rw [whole?, towardZero_intCast, clampWhole_of_lt (by omega)]
  | uint v =>
    obtain rfl := Option.some.inj h
    have := v.toNat_lt
    have hcast : (v.toNat : ℚ) = (v.toNat : Int) := (Int.cast_natCast _).symm
    rw [whole?, hcast, towardZero_intCast, clampWhole_of_lt (by omega)]
  | float x =>
    rw [value?] at h
    rw [whole?, Floating.trunc?_eq, h]
    rfl
  | decimal d =>
    obtain rfl := Option.some.inj h
    have hsize : d.trunc.natAbs < 2 ^ 96 := by
      rw [Decimal.trunc, Floating.natAbs_signed]
      exact (Nat.div_le_self _ _).trans_lt d.mantissa_lt
    rw [whole?, ← Decimal.trunc_eq_towardZero, clampWhole_of_lt (by omega)]

theorem whole?_of_value_none (h : n.value? = none) : n.whole? = none := by
  cases n with
  | int | uint | decimal => cases h
  | float x =>
    rw [value?] at h
    rw [whole?, Floating.trunc?_eq, h]
    rfl

end Number

namespace Width

variable {w : Width} {n : Number} {z : Int} {q : ℚ}

def isSigned : Width → Bool
  | i8 | i16 | i32 | i64 => true
  | _ => false

/-- How a width of whole numbers holds an integer. -/
def store (w : Width) (z : Int) : Number :=
  if w.isSigned then .int (Int64.ofInt z) else .uint (UInt64.ofNat z.toNat)

theorem coerce?_eq_store (hn : n.whole? = some z) (h : w.Holds z) :
    w.coerce? n = some (w.store z) := by
  cases w with
  | f32 | f64 | decimal => cases h
  | i8 | i16 | i32 | i64 | u8 | u16 | u32 | u64 =>
    simp only [coerce?, hn, Option.bind_some]
    exact if_pos h

/-- A number is taken by its whole part, if that is in range. -/
theorem coerce?_of_value (hn : n.value? = some q) (h : w.Holds (towardZero q)) :
    w.coerce? n = some (w.store (towardZero q)) := by
  have hsize := natAbs_lt_of_holds h
  have hwhole := Number.whole?_of_value hn
  rw [Number.clampWhole_of_lt (by omega)] at hwhole
  exact coerce?_eq_store hwhole h

theorem coerce?_eq_none_of_value (hw : w.isWhole = true)
    (h : ∀ q, n.value? = some q → ¬w.Holds (towardZero q)) : w.coerce? n = none := by
  cases hn : n.value? with
  | some q =>
    exact coerce?_of_not_holds hw (Number.whole?_of_value hn) (mt holds_clampWhole_iff.1 (h q hn))
  | none =>
    have hwhole := Number.whole?_of_value_none hn
    cases w with
    | f32 | f64 | decimal => cases hw
    | i8 | i16 | i32 | i64 | u8 | u16 | u32 | u64 => simp only [coerce?, hwhole, Option.bind_none]

theorem toInt_ofInt_of_holds (hw : w.isSigned = true) (h : w.Holds z) :
    (Int64.ofInt z).toInt = z := by
  have hrange : -2 ^ 63 ≤ z ∧ z < 2 ^ 63 := by
    cases w with
    | i8 | i16 | i32 | i64 =>
      simp only [Holds] at h
      omega
    | u8 | u16 | u32 | u64 | f32 | f64 | decimal => cases hw
  exact Int64.toInt_ofInt_of_le hrange.1 hrange.2

theorem toNat_ofNat_of_holds (hw : w.isSigned = false) (h : w.Holds z) :
    ((UInt64.ofNat z.toNat).toNat : Int) = z := by
  have hrange : 0 ≤ z ∧ z < 2 ^ 64 := by
    cases w with
    | u8 | u16 | u32 | u64 =>
      simp only [Holds] at h
      omega
    | i8 | i16 | i32 | i64 => cases hw
    | f32 | f64 | decimal => cases h
  have hsize : z.toNat < UInt64.size := by
    change z.toNat < 2 ^ 64
    omega
  rw [UInt64.toNat_ofNat_of_lt' hsize, Int.toNat_of_nonneg hrange.1]

theorem value?_store (h : w.Holds z) : (w.store z).value? = some (z : ℚ) := by
  cases hw : w.isSigned with
  | true => rw [store, if_pos hw, Number.value?, toInt_ofInt_of_holds hw h]
  | false =>
    have hz := toNat_ofNat_of_holds hw h
    rw [store, hw, if_neg (by decide), Number.value?]
    exact_mod_cast congrArg some (congrArg (Int.cast (R := ℚ)) hz)

/-- Integers held in one width compare as integers. -/
theorem compare?_store {v : Int} (hv : w.Holds v) (hz : w.Holds z) :
    (w.store v).compare? (w.store z) = some (compare v z) := by
  cases hw : w.isSigned with
  | true =>
    simp only [store, hw, if_true, Number.compare?, toInt_ofInt_of_holds hw hv,
      toInt_ofInt_of_holds hw hz]
  | false =>
    have hv' := toNat_ofNat_of_holds hw hv
    have hz' := toNat_ofNat_of_holds hw hz
    simp only [store, hw, Bool.false_eq_true, if_false, Number.compare?]
    rw [← compare_natCast, hv', hz']

end Width

end RecordSearch
