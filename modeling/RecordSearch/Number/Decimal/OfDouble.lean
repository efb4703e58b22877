import RecordSearch.Number.Decimal.Basic

/-!
Decimals from floating-point numbers. The mantissa takes factors of five in exchange for halvings
until the exponent is a power of ten, as far as 96 bits go, and is then cut to the digits that a
53 bit mantissa can vouch for.
-/

namespace RecordSearch.Decimal

/-- One place fewer; a five in it goes up. -/
def dropPlace (bits : Nat) : Nat := if 5 ≤ bits % 10 then bits / 10 + 1 else bits / 10

/-- Takes `count` halvings out of the power of two, each for a factor of five if that fits. The
second component is the power of ten. -/
def absorbHalvings (bits : Nat) (tens : Int) : Nat → Nat × Int
  | 0 => (bits, tens)
  | count + 1 =>
    if bits % 2 = 0 then absorbHalvings (bits / 2) (tens + 1) count
    else if 5 * bits < Nat.pow 2 96 then absorbHalvings (5 * bits) tens count
    else absorbHalvings (bits / 2) (tens + 1) count

/-- Takes `count` doublings out of the power of two, and divides by five where the top bit is
already in use, which is given up when the power of ten is too great. -/
def absorbDoublings (bits : Nat) (tens : Int) : Nat → Option (Nat × Int)
  | 0 => some (bits, tens)
  | count + 1 =>
    if bits < Nat.pow 2 95 then absorbDoublings (2 * bits) (tens - 1) count
    else if (count : Int) + 1 < 2 * tens then none
    else absorbDoublings (bits / 5) tens count

def absorbTens (bits : Nat) : Nat → Option Nat
  | 0 => some bits
  | count + 1 => if 10 * bits < Nat.pow 2 96 then absorbTens (10 * bits) count else none

/-- Cuts the places beyond 28, the second argument. Nothing left is zero without a place. -/
def cutToScale (bits : Nat) : Nat → Nat × Nat
  | 0 => (bits, 28)
  | extra + 1 => if bits / 10 = 0 then (0, 0) else cutToScale (dropPlace bits) extra

/-- Cuts places while the mantissa has 53 bits or more. -/
def cutToPrecision (bits : Nat) : Nat → Nat × Nat
  | 0 => (bits, 0)
  | scale + 1 =>
    if Nat.pow 2 52 ≤ bits then cutToPrecision (dropPlace bits) scale else (bits, scale + 1)

def settle (bits : Nat) (tens : Int) : Option (Nat × Nat) :=
  if 0 < tens then (absorbTens bits tens.toNat).map fun grown => (grown, 0)
  else
    let scale := (-tens).toNat
    let (cut, places) := if scale ≤ 28 then (bits, scale) else cutToScale bits (scale - 28)
    let (exact, kept) := cutToPrecision cut places
    some (strip exact kept)

/-- Zero keeps its sign. -/
def ofDouble? : Double → Option Decimal
  | .finite negative m =>
    if m.mantissa = 0 then of? negative 0 0
    else do
      let (bits, tens) ←
        if m.exponent < 0 then some (absorbHalvings m.mantissa m.exponent m.exponent.natAbs)
        else absorbDoublings m.mantissa m.exponent m.exponent.natAbs
      let (mantissa, scale) ← settle bits tens
      of? negative mantissa scale
  | _ => none

end RecordSearch.Decimal
