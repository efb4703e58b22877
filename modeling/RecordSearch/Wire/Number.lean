import RecordSearch.Json.Basic
import RecordSearch.Number.Basic

/-!
Numbers in JSON. Integers of 64 bits stay integers. A fraction is a floating-point number when
that one's digits are the digits written, and a decimal when they are not.
-/

namespace RecordSearch

def readInt64? (s : String) : Option Int64 :=
  (Digits.toInt? s.toList).bind fun n =>
    if -(Nat.pow 2 63 : Int) ≤ n ∧ n < (Nat.pow 2 63 : Int) then some (Int64.ofInt n) else none

def readUInt64? (s : String) : Option UInt64 :=
  (Digits.toNat? s.toList).bind fun n => if n < Nat.pow 2 64 then some (UInt64.ofNat n) else none

/-- Nothing when the digits go beyond the greatest floating-point number. -/
def readFraction? (s : String) : Option Number := do
  let x ← (Floating.ofText? s : Option Double)
  if !x.isFinite then none
  else match Decimal.ofText? s with
    | some d => some (if d.normalize.text = x.text then .float x else .decimal d)
    | none => some (.float x)

def Number.ofJsonText? (s : String) : Option Number :=
  ((readInt64? s).map .int).or (((readUInt64? s).map .uint).or (readFraction? s))

/-- Without a power of ten from `10 ^ -5` up to below `10 ^ 16`, and then always with a point. -/
def Numeral.json (x : Numeral) : List Char :=
  let top := x.magnitude
  if -5 ≤ top ∧ top ≤ 15 then
    let plain := x.plain
    if plain.contains '.' then plain else plain ++ ['.', '0']
  else x.scientific

/-- Shortest digits, the even one of two equally near. JSON has neither infinities nor a value that
is no number. -/
def Floating.json : Double → Json
  | .finite negative m =>
    let digits := (m.shortest Ratio.nearestEven).json
    .number (String.ofList ((if negative then ['-'] else []) ++ digits))
  | _ => .null

def Number.json : Number → Json
  | .float x => x.json
  | n => .number n.text

end RecordSearch
