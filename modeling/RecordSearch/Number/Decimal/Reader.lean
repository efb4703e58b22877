import RecordSearch.Number.Decimal.Basic

/-!
Decimals from text. Digits that do not fit behind the point are rounded at the first one that is
dropped, and of the rest only the form counts. Digits that do not fit before the point are an
error. With an exponent the digits are read first, so they are rounded before they are shifted.
-/

namespace RecordSearch.Decimal

/-- The mantissa and scale once `digit` is the first digit that is dropped: a five goes up. A
mantissa that outgrows its bits by that loses one more place. -/
def roundAt (mantissa scale digit : Nat) : Option (Nat × Nat) :=
  if digit < 5 then some (mantissa, scale)
  else if mantissa + 1 < Nat.pow 2 96 then some (mantissa + 1, scale)
  else if scale = 0 then none
  else some ((mantissa + 5) / 10, scale - 1)

/-- What may follow the digit at which a number is rounded. -/
def isTail (cs : List Char) : Bool := cs.all fun c => c.isDigit || c == '_'

/-- The mantissas from which on digits count behind an underscore at the last place: those whose
last digit was added when they were about to outgrow 64 bits. -/
def wideMantissa : Nat := 10 * (Nat.pow 2 64 / 10 - 255)

/-- Digits with at most one point, and underscores anywhere behind the first digit. -/
def readDigits (point seen : Bool) (mantissa scale : Nat) : List Char → Option (Nat × Nat)
  | [] => if seen then some (mantissa, scale) else none
  | c :: rest =>
    if c.isDigit then
      let grown := 10 * mantissa + Digits.digit c
      if point && (scale == 28 || Nat.pow 2 96 ≤ grown) then
        if isTail rest then roundAt mantissa scale (Digits.digit c) else none
      else if grown < Nat.pow 2 96 then
        readDigits point true grown (if point then scale + 1 else scale) rest
      else none
    else if c == '_' && seen then
      if scale == 28 && mantissa < wideMantissa then
        if isTail rest then some (mantissa, scale) else none
      else readDigits point true mantissa scale rest
    else if c == '.' && !point then readDigits true seen mantissa scale rest
    else none

def readUnsigned? (negative : Bool) (cs : List Char) : Option Decimal :=
  (readDigits false false 0 0 cs).bind fun (mantissa, scale) =>
    of? (negative && mantissa != 0) mantissa scale

/-- Positional text with at most one sign. Zero has no sign. -/
def readPlain? : List Char → Option Decimal
  | '-' :: cs => readUnsigned? true cs
  | '+' :: cs => readUnsigned? false cs
  | cs => readUnsigned? false cs

/-- Ten to the power `-n` times the decimal, rounded to 28 places with halves going up. -/
def shiftDown? (d : Decimal) (n : Nat) : Option Decimal :=
  if 28 < n then none
  else if d.scale + n ≤ 28 then of? d.negative d.mantissa (d.scale + n)
  else of? d.negative (Ratio.nearestUp ⟨d.mantissa, Nat.pow 10 (d.scale + n - 28)⟩) 28

/-- Ten to the power `n` times the decimal. Only what goes beyond the places it had lengthens
the mantissa. -/
def shiftUp? (d : Decimal) (n : Nat) : Option Decimal :=
  if n ≤ d.scale then of? d.negative d.mantissa (d.scale - n)
  else if 28 < n then none
  else of? d.negative (d.mantissa * Nat.pow 10 (n - d.scale)) 0

def unsignedExponent? : List Char → Option Nat
  | '+' :: cs => Digits.toNat? cs
  | cs => Digits.toNat? cs

/-- Positional text followed by the letter `e` and a power of ten. -/
def readScientific? (cs : List Char) : Option Decimal :=
  let isMark (c : Char) : Bool := c == 'e' || c == 'E'
  match cs.dropWhile fun c => !isMark c with
  | [] => none
  | _ :: exponent => do
    let base ← readPlain? (cs.takeWhile fun c => !isMark c)
    match exponent with
    | '-' :: digits => base.shiftDown? (← unsignedExponent? digits)
    | digits => base.shiftUp? (← unsignedExponent? digits)

def ofText? (s : String) : Option Decimal :=
  (readPlain? s.toList).or (readScientific? s.toList)

end RecordSearch.Decimal
