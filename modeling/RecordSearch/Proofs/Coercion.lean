import RecordSearch.Number.Width
import Mathlib.Algebra.Order.Ring.Int

/-!
What a width of whole numbers makes of a number. It looks at the whole part alone, and takes it if it
is within its range.

* `Width.coerce?_congr`: numbers with one whole part are taken alike;
* `Width.exists_coerce?_of_holds`, `Width.coerce?_of_not_holds`: what is taken, and what is refused;
* `Width.holds_clampWhole_iff`: whole parts that are cut to 128 bits are out of every range.
-/

namespace RecordSearch

namespace Width

def isWhole : Width → Bool
  | f32 | f64 | decimal => false
  | _ => true

/-- The range of a width of whole numbers. -/
def Holds (w : Width) (n : Int) : Prop :=
  match w with
  | i8 => -2 ^ 7 ≤ n ∧ n < 2 ^ 7
  | i16 => -2 ^ 15 ≤ n ∧ n < 2 ^ 15
  | i32 => -2 ^ 31 ≤ n ∧ n < 2 ^ 31
  | i64 => -2 ^ 63 ≤ n ∧ n < 2 ^ 63
  | u8 => 0 ≤ n ∧ n < 2 ^ 8
  | u16 => 0 ≤ n ∧ n < 2 ^ 16
  | u32 => 0 ≤ n ∧ n < 2 ^ 32
  | u64 => 0 ≤ n ∧ n < 2 ^ 64
  | f32 | f64 | decimal => False

variable {w : Width} {m n : Number} {z : Int}

theorem natAbs_lt_of_holds (h : w.Holds z) : z.natAbs < 2 ^ 64 := by
  cases w <;> simp only [Holds] at h <;> omega

theorem natAbs_lt_of_narrow (hw : ¬(w = .i64 ∨ w = .u64)) (h : w.Holds z) : z.natAbs < 2 ^ 32 := by
  cases w <;> simp only [Holds] at h <;> first | omega | simp at hw

/-- The whole part is all that counts. -/
theorem coerce?_congr (hw : w.isWhole = true) (h : m.whole? = n.whole?) :
    w.coerce? m = w.coerce? n := by
  cases w with
  | f32 | f64 | decimal => cases hw
  | i8 | i16 | i32 | i64 | u8 | u16 | u32 | u64 => simp only [coerce?, h]

theorem exists_fitSigned {bits : Nat} (hbits : bits ≤ 64) (hlow : -2 ^ (bits - 1) ≤ z)
    (hhigh : z < 2 ^ (bits - 1)) : ∃ m, fitSigned bits z = some m ∧ m.whole? = some z := by
  have hpow : (2 : Int) ^ (bits - 1) ≤ 2 ^ 63 := pow_le_pow_right₀ (by decide) (by omega)
  have hin : -((Nat.pow 2 (bits - 1) : Nat) : Int) ≤ z ∧ z < (Nat.pow 2 (bits - 1) : Nat) := by
    rw [Nat.pow_eq]
    push_cast
    exact ⟨hlow, hhigh⟩
  refine ⟨_, if_pos hin, ?_⟩
  rw [Number.whole?, Int64.toInt_ofInt_of_le (by omega) (by omega)]

theorem exists_fitUnsigned {bits : Nat} (hbits : bits ≤ 64) (hlow : 0 ≤ z) (hhigh : z < 2 ^ bits) :
    ∃ m, fitUnsigned bits z = some m ∧ m.whole? = some z := by
  have hpow : (2 : Int) ^ bits ≤ 2 ^ 64 := pow_le_pow_right₀ (by decide) (by omega)
  have hin : 0 ≤ z ∧ z < (Nat.pow 2 bits : Nat) := by
    rw [Nat.pow_eq]
    push_cast
    exact ⟨hlow, hhigh⟩
  refine ⟨_, if_pos hin, ?_⟩
  have hsize : z.toNat < UInt64.size := by
    change z.toNat < 2 ^ 64
    omega
  rw [Number.whole?, UInt64.toNat_ofNat_of_lt' hsize, Int.toNat_of_nonneg hlow]

/-- **What is in range is taken with its value.** -/
theorem exists_coerce?_of_holds (hn : n.whole? = some z) (h : w.Holds z) :
    ∃ m, w.coerce? n = some m ∧ m.whole? = some z := by
  have hbits : ∀ bits ∈ [8, 16, 32, 64], bits ≤ 64 := by decide
  cases w with
  | f32 | f64 | decimal => cases h
  | i8 | i16 | i32 | i64 =>
    simp only [coerce?, hn, Option.bind_some]
    exact exists_fitSigned (hbits _ (by decide)) h.1 h.2
  | u8 | u16 | u32 | u64 =>
    simp only [coerce?, hn, Option.bind_some]
    exact exists_fitUnsigned (hbits _ (by decide)) h.1 h.2

/-- What is out of range is refused. -/
theorem coerce?_of_not_holds (hw : w.isWhole = true) (hn : n.whole? = some z) (h : ¬w.Holds z) :
    w.coerce? n = none := by
  cases w with
  | f32 | f64 | decimal => cases hw
  | i8 | i16 | i32 | i64 | u8 | u16 | u32 | u64 =>
    simp only [coerce?, hn, Option.bind_some]
    exact if_neg h

/-- No range reaches to where whole parts are cut. -/
theorem holds_clampWhole_iff : w.Holds (Number.clampWhole z) ↔ w.Holds z := by
  cases w <;> simp only [Holds, Number.clampWhole, Nat.pow_eq] <;> omega

end Width

theorem Number.clampWhole_of_lt {z : Int} (h : z.natAbs < 2 ^ 127) : clampWhole z = z := by
  simp only [clampWhole, Nat.pow_eq]
  omega

namespace Width

variable {w : Width} {x : Double} {z : Int} (hx : x.trunc? = some z)

include hx

theorem whole?_float : Number.whole? (.float x) = some (Number.clampWhole z) := by
  rw [Number.whole?, hx, Option.map_some]

theorem exists_coerce?_float_of_holds (h : w.Holds z) :
    ∃ m, w.coerce? (.float x) = some m ∧ m.whole? = some z := by
  have hsize := natAbs_lt_of_holds h
  rw [← Number.clampWhole_of_lt (show z.natAbs < 2 ^ 127 by omega)] at h ⊢
  exact exists_coerce?_of_holds (whole?_float hx) h

theorem coerce?_float_of_not_holds (hw : w.isWhole = true) (h : ¬w.Holds z) :
    w.coerce? (.float x) = none :=
  coerce?_of_not_holds hw (whole?_float hx) (mt holds_clampWhole_iff.1 h)

end Width

end RecordSearch
