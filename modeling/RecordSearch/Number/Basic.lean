import RecordSearch.Number.Decimal.Reader
import RecordSearch.Number.Decimal.OfDouble

/-!
Numbers of four representations. They compare by value: two of one representation exactly, with
a floating-point number in the 64 bit format, else as decimals or integers. Equality is what the
order says, so it differs from sameness of representation.
-/

namespace RecordSearch

inductive Number where
  | int (value : Int64)
  | uint (value : UInt64)
  | float (value : Double)
  | decimal (value : Decimal)
deriving DecidableEq

namespace Number

def toDouble : Number → Double
  | int v => Floating.ofInt v.toInt
  | uint v => Floating.ofInt v.toNat
  | float v => v
  | decimal v => v.toDouble

/-- The range of whole parts: 128 bits with a sign. Greater ones are cut to its ends. -/
def clampWhole (n : Int) : Int :=
  let bound : Int := Nat.pow 2 127
  max (-bound) (min (bound - 1) n)

/-- The whole part, rounded toward zero, of a number that has one. -/
def whole? : Number → Option Int
  | int v => some v.toInt
  | uint v => some v.toNat
  | float v => v.trunc?.map clampWhole
  | decimal v => some v.trunc

def toDecimal? : Number → Option Decimal
  | int v => Decimal.ofInt? v.toInt
  | uint v => Decimal.ofInt? v.toNat
  | float v => Decimal.ofDouble? v
  | decimal v => some v

def compareDoubles (a b : Number) : Option Ordering := a.toDouble.compare? b.toDouble

def compareDecimals (a b : Number) : Option Ordering := do
  return (← a.toDecimal?).order (← b.toDecimal?)

def compareWhole (a b : Number) : Option Ordering := do
  return compare (← a.whole?) (← b.whole?)

/-- A floating-point number decides the comparison for both, then a decimal does. -/
def compare? (a b : Number) : Option Ordering :=
  match a, b with
  | int x, int y => some (compare x.toInt y.toInt)
  | uint x, uint y => some (compare x.toNat y.toNat)
  | decimal x, decimal y => some (x.order y)
  | float _, _ => compareDoubles a b
  | _, float _ => compareDoubles a b
  | decimal _, _ => compareDecimals a b
  | _, decimal _ => compareDecimals a b
  | _, _ => compareWhole a b

instance : BEq Number where
  beq a b := a.compare? b == some .eq

theorem beq_iff {a b : Number} : (a == b) = true ↔ a.compare? b = some .eq := by
  change (a.compare? b == some .eq) = true ↔ _
  simp

def text : Number → String
  | int v => Digits.intText v.toInt
  | uint v => Digits.natText v.toNat
  | float v => v.text
  | decimal v => v.text

end Number

end RecordSearch
