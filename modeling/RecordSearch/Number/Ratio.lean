/-!
Exact quotients of natural numbers, with the roundings that number formats need.
-/

namespace RecordSearch

structure Ratio where
  num : Nat
  den : Nat
deriving DecidableEq

namespace Ratio

def ofNat (n : Nat) : Ratio := ⟨n, 1⟩

/-- Multiplied by a power of `base`, also a negative one. -/
def scale (r : Ratio) (base : Nat) (exponent : Int) : Ratio :=
  if exponent < 0 then ⟨r.num, r.den * Nat.pow base exponent.natAbs⟩
  else ⟨r.num * Nat.pow base exponent.natAbs, r.den⟩

def floor (r : Ratio) : Nat := r.num / r.den

/-- The nearest whole number, and the even one of two that are equally near. -/
def nearestEven (r : Ratio) : Nat :=
  let q := r.num / r.den
  let twice := 2 * (r.num % r.den)
  if twice < r.den then q else if r.den < twice then q + 1 else q + q % 2

/-- A half goes up. -/
def nearestUp (r : Ratio) : Nat :=
  if 2 * (r.num % r.den) < r.den then r.num / r.den else r.num / r.den + 1

def isAtLeastPow (r : Ratio) (base : Nat) (exponent : Int) : Bool :=
  1 ≤ (r.scale base (-exponent)).floor

/-- The greatest `k` with `2 ^ k` at most the quotient, which is not zero. -/
def log2 (r : Ratio) : Int :=
  let k : Int := r.num.log2 - r.den.log2
  if r.isAtLeastPow 2 k then k else k - 1

/-- The greatest `k` with `10 ^ k` at most the quotient, which is not zero. -/
def log10 (r : Ratio) : Int :=
  let k : Int := (Nat.toDigits 10 r.num).length - (Nat.toDigits 10 r.den).length
  if r.isAtLeastPow 10 k then k else k - 1

end Ratio

end RecordSearch
