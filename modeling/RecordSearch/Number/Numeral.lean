import RecordSearch.Text.Digits

/-!
Decimal numerals `digits * 10 ^ exponent` without a sign: reading them from text, and the two
ways to write them, with a power of ten and without.
-/

namespace RecordSearch

structure Numeral where
  digits : Nat
  exponent : Int
deriving DecidableEq

namespace Numeral

/-- The exponent after the letter `e`, with at most one sign. -/
def readExponent? : List Char → Option Int
  | [] => some 0
  | c :: cs => if c == 'e' || c == 'E' then Digits.toInt? cs else none

/-- Digits with at most one point, on either side of which they may be missing but not on both,
and perhaps an exponent. -/
def read? (cs : List Char) : Option Numeral :=
  let whole := cs.takeWhile Char.isDigit
  let (fraction, tail) :=
    match cs.dropWhile Char.isDigit with
    | '.' :: rest => (rest.takeWhile Char.isDigit, rest.dropWhile Char.isDigit)
    | rest => ([], rest)
  if whole.isEmpty && fraction.isEmpty then none
  else (readExponent? tail).map fun e => ⟨Digits.value (whole ++ fraction), e - fraction.length⟩

/-- The digits without the zeros at the end, and the exponent that goes with them. -/
def significant (x : Numeral) : List Char × Int :=
  let cs := Digits.ofNat x.digits
  let kept := (cs.reverse.dropWhile (· == '0')).reverse
  if kept.isEmpty then (['0'], 0) else (kept, x.exponent + (cs.length - kept.length))

/-- The exponent when one digit stands before the point. -/
def magnitude (x : Numeral) : Int :=
  let (cs, e) := x.significant
  e + cs.length - 1

/-- Without a power of ten: as many zeros as it takes, and no point after a whole number. -/
def plain (x : Numeral) : List Char :=
  let (cs, e) := x.significant
  if 0 ≤ e then cs ++ List.replicate e.toNat '0'
  else
    let point : Int := e + cs.length
    if 0 < point then cs.take point.toNat ++ '.' :: cs.drop point.toNat
    else '0' :: '.' :: (List.replicate (-point).toNat '0' ++ cs)

/-- One digit before the point, and an exponent with a sign. -/
def scientific (x : Numeral) : List Char :=
  let cs := x.significant.1
  let e := x.magnitude
  let sign := if e < 0 then '-' else '+'
  cs.take 1 ++ (if cs.length ≤ 1 then [] else '.' :: cs.drop 1) ++
    'e' :: sign :: Digits.ofNat e.natAbs

end Numeral

end RecordSearch
