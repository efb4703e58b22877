import RecordSearch.Number.Floating

/-!
Decimal numbers of limited size: a mantissa of 96 bits and up to 28 places after the point. The
number of places is part of a decimal and shows in its text, but not in its order.
-/

namespace RecordSearch

structure Decimal where
  negative : Bool
  mantissa : Nat
  scale : Nat
  mantissa_lt : mantissa < Nat.pow 2 96
  scale_le : scale ≤ 28
deriving DecidableEq

namespace Decimal

def of? (negative : Bool) (mantissa scale : Nat) : Option Decimal :=
  if h : mantissa < Nat.pow 2 96 ∧ scale ≤ 28 then some ⟨negative, mantissa, scale, h.1, h.2⟩
  else none

def ofInt? (n : Int) : Option Decimal := of? (n < 0) n.natAbs 0

/-- The value as a multiple of `10 ^ -28`. -/
def units (d : Decimal) : Int :=
  Floating.signed d.negative (d.mantissa * Nat.pow 10 (28 - d.scale))

def order (a b : Decimal) : Ordering := compare a.units b.units

/-- The whole part, rounded toward zero. -/
def trunc (d : Decimal) : Int := Floating.signed d.negative (d.mantissa / Nat.pow 10 d.scale)

def toDouble (d : Decimal) : Double :=
  Floating.ofRatio d.negative ⟨d.mantissa, Nat.pow 10 d.scale⟩

/-- As many digits after the point as there are places. -/
def text (d : Decimal) : String :=
  let cs := Digits.padded (d.scale + 1) d.mantissa
  let whole := cs.length - d.scale
  String.ofList
    ((if d.negative then ['-'] else []) ++ cs.take whole ++
      (if d.scale = 0 then [] else '.' :: cs.drop whole))

/-- Places that hold a zero at the end are given up. -/
def strip (mantissa : Nat) : Nat → Nat × Nat
  | 0 => (mantissa, 0)
  | scale + 1 => if mantissa % 10 = 0 then strip (mantissa / 10) scale else (mantissa, scale + 1)

theorem strip_le (mantissa scale : Nat) :
    (strip mantissa scale).1 ≤ mantissa ∧ (strip mantissa scale).2 ≤ scale := by
  induction scale generalizing mantissa with
  | zero => simp [strip]
  | succ scale ih =>
    simp only [strip]
    split
    · have h := ih (mantissa / 10)
      omega
    · simp

/-- The same value with the fewest places. -/
def normalize (d : Decimal) : Decimal :=
  have h := strip_le d.mantissa d.scale
  ⟨d.negative && d.mantissa != 0, (strip d.mantissa d.scale).1, (strip d.mantissa d.scale).2,
    Nat.lt_of_le_of_lt h.1 d.mantissa_lt, Nat.le_trans h.2 d.scale_le⟩

end Decimal

end RecordSearch
