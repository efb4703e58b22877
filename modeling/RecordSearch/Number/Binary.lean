import RecordSearch.Number.Ratio
import RecordSearch.Number.Numeral

/-!
Binary formats for real numbers. A magnitude is a whole mantissa times a power of two within the
bounds of the format; a quotient is rounded to the nearest one, ties to the even mantissa.
-/

namespace RecordSearch

structure BinaryFormat where
  precision : Nat
  minExponent : Int
  maxExponent : Int
deriving DecidableEq

namespace BinaryFormat

def binary32 : BinaryFormat := ⟨24, -149, 104⟩

def binary64 : BinaryFormat := ⟨53, -1074, 971⟩

/-- The mantissa uses the whole precision unless the exponent is the least one, so each number
has one form. -/
def Fits (f : BinaryFormat) (mantissa : Nat) (exponent : Int) : Prop :=
  mantissa < Nat.pow 2 f.precision ∧ f.minExponent ≤ exponent ∧ exponent ≤ f.maxExponent ∧
    (Nat.pow 2 (f.precision - 1) ≤ mantissa ∨ exponent = f.minExponent)

instance (f : BinaryFormat) (mantissa : Nat) (exponent : Int) :
    Decidable (f.Fits mantissa exponent) := by
  unfold Fits
  infer_instance

end BinaryFormat

/-- A finite number of a format, without its sign. -/
structure Magnitude (f : BinaryFormat) where
  mantissa : Nat
  exponent : Int
  fits : f.Fits mantissa exponent
deriving DecidableEq

namespace Magnitude

variable {f : BinaryFormat}

def ratio (x : Magnitude f) : Ratio := (Ratio.ofNat x.mantissa).scale 2 x.exponent

/-- The number as a multiple of the least positive one of its format. -/
def units (x : Magnitude f) : Nat := x.mantissa * Nat.pow 2 (x.exponent - f.minExponent).toNat

/-- The nearest magnitude, or none when the quotient lies beyond the greatest one. -/
def nearest? (f : BinaryFormat) (r : Ratio) : Option (Magnitude f) :=
  let exponent :=
    if r.num = 0 then f.minExponent else max f.minExponent (r.log2 - (f.precision - 1 : Nat))
  let mantissa := (r.scale 2 (-exponent)).nearestEven
  if h : f.Fits mantissa exponent then some ⟨mantissa, exponent, h⟩
  else if h : f.Fits (mantissa / 2) (exponent + 1) then some ⟨mantissa / 2, exponent + 1, h⟩
  else none

/-- From `10 ^ 400` on every format here overflows, and below `10 ^ -400` every one has nothing
but zero, so the powers of ten in between are all that is ever computed. -/
def nearestNumeral? (f : BinaryFormat) (x : Numeral) : Option (Magnitude f) :=
  let top : Int := x.exponent + (Digits.ofNat x.digits).length
  if x.digits = 0 ∨ top < -400 then nearest? f ⟨0, 1⟩
  else if 400 < top then none
  else nearest? f ((Ratio.ofNat x.digits).scale 10 x.exponent)

/-- The neighbours of a magnitude on the grid of multiples of `10 ^ grid`, if one of them reads
back as the magnitude. If both do, it is the one to which `nearest` rounds. -/
def onGrid? (nearest : Ratio → Nat) (x : Magnitude f) (grid : Int) : Option Numeral :=
  let r := x.ratio.scale 10 (-grid)
  let below : Numeral := ⟨r.floor, grid⟩
  let above : Numeral := ⟨r.floor + 1, grid⟩
  let reads (n : Numeral) : Bool := nearestNumeral? f n == some x
  match reads below, reads above with
  | true, true => some (if nearest r = r.floor then below else above)
  | true, false => some below
  | false, true => some above
  | false, false => none

/-- Every digit of the magnitude, as a power of two divides a power of ten. -/
def exactNumeral (x : Magnitude f) : Numeral :=
  if x.exponent < 0 then ⟨x.mantissa * Nat.pow 5 x.exponent.natAbs, x.exponent⟩
  else ⟨x.mantissa * Nat.pow 2 x.exponent.natAbs, 0⟩

/-- The fewest digits that read back as the magnitude, and of those the nearest to it. Two can be
equally near, so the rule of rounding is an argument. -/
def shortest (nearest : Ratio → Nat) (x : Magnitude f) : Numeral :=
  if x.mantissa = 0 then ⟨0, 0⟩
  else
    let top := x.ratio.log10
    ((List.range 17).findSome? fun (i : Nat) => x.onGrid? nearest (top - i)).getD x.exactNumeral

end Magnitude

end RecordSearch
