import RecordSearch.Text.Blank
import RecordSearch.Text.Digits
import RecordSearch.Calendar.Timestamp

/-!
Patterns of date text as lists of items. One list serves for writing a moment, for reading fields
back, and for printing the pattern itself in either of two notations. Reading is more tolerant
than writing: numbers may be short and blanks may stand before them.
-/

namespace RecordSearch

inductive DateItem where
  | year | month | day | hour | minute | second
  /-- Three digits. -/
  | millis
  /-- A point and three digits, which may be missing in text that is read. -/
  | pointMillis
  /-- A point and as many digits as it takes, three at a time; nothing for zero. -/
  | fraction
  | offset
  | blank
  | literal (c : Char)
deriving DecidableEq

namespace DateItem

/-- The item in a pattern such as `yyyy-MM-dd`. -/
def mask : DateItem → String
  | year => "yyyy"
  | month => "MM"
  | day => "dd"
  | hour => "HH"
  | minute => "mm"
  | second => "ss"
  | millis => "fff"
  | pointMillis => ".fff"
  | fraction => ".fffffffff"
  | offset => "zzz"
  | blank => " "
  | literal c => String.singleton c

/-- The item in a pattern such as `%Y-%m-%d`. -/
def directive : DateItem → String
  | year => "%Y"
  | month => "%m"
  | day => "%d"
  | hour => "%H"
  | minute => "%M"
  | second => "%S"
  | millis => "%3f"
  | pointMillis => "%.3f"
  | fraction => "%.f"
  | offset => "%:z"
  | blank => " "
  | literal c => String.singleton c

/-- Years of other than four digits carry a sign. -/
def yearText (y : Int) : List Char :=
  if 0 ≤ y ∧ y ≤ 9999 then Digits.padded 4 y.toNat
  else (if y < 0 then '-' else '+') :: Digits.padded 4 y.natAbs

def fractionText (nano : Nat) : List Char :=
  if nano = 0 then []
  else if nano % 1000000 = 0 then '.' :: Digits.padded 3 (nano / 1000000)
  else if nano % 1000 = 0 then '.' :: Digits.padded 6 (nano / 1000)
  else '.' :: Digits.padded 9 nano

/-- Hours and minutes with a sign, seconds rounded to the nearest minute. -/
def offsetText (offset : Int) : List Char :=
  let minutes := (offset.natAbs + 30) / 60
  (if offset < 0 then '-' else '+') ::
    (Digits.padded 2 (minutes / 60) ++ ':' :: Digits.padded 2 (minutes % 60))

def write (m : Moment) (zone : Int) : DateItem → List Char
  | year => yearText m.date.year
  | month => Digits.padded 2 m.date.month
  | day => Digits.padded 2 m.date.day
  | hour => Digits.padded 2 m.hour
  | minute => Digits.padded 2 m.minute
  | second => Digits.padded 2 m.secondOfMinute
  | millis => Digits.padded 3 (m.nanoOfSecond / 1000000)
  | pointMillis => '.' :: Digits.padded 3 (m.nanoOfSecond / 1000000)
  | fraction => fractionText m.nanoOfSecond
  | offset => offsetText zone
  | blank => [' ']
  | literal c => [c]

end DateItem

/-! Readers of the parts of a date return what they read and the rest of the text. -/

namespace DateScan

/-- From one digit up to `most`. -/
def number (most : Nat) (cs : List Char) : Option (Nat × List Char) :=
  let digits := (cs.take most).takeWhile Char.isDigit
  if digits.isEmpty then none else some (Digits.value digits, cs.drop digits.length)

def exactly (count : Nat) (cs : List Char) : Option (Nat × List Char) :=
  let digits := cs.take count
  if digits.length = count && digits.all Char.isDigit then
    some (Digits.value digits, cs.drop count)
  else none

/-- A number of one or two digits within bounds, after any blanks. -/
def bounded (low high : Nat) (cs : List Char) : Option (Nat × List Char) := do
  let (n, rest) ← number 2 (Text.trimLeft cs)
  if low ≤ n ∧ n ≤ high then some (n, rest) else none

/-- Any number of digits after a sign, else at most four; within 32 bits. -/
def year (cs : List Char) : Option (Int × List Char) :=
  match Text.trimLeft cs with
  | '-' :: rest => do
    let (n, tail) ← number rest.length rest
    if n ≤ Nat.pow 2 31 then some (-(n : Int), tail) else none
  | '+' :: rest => do
    let (n, tail) ← number rest.length rest
    if n < Nat.pow 2 31 then some ((n : Int), tail) else none
  | rest => do
    let (n, tail) ← number 4 rest
    some ((n : Int), tail)

/-- Digits after the point, of which the first nine count. Without a point there are none. -/
def fraction : List Char → Option (Nat × List Char)
  | '.' :: rest =>
    let digits := rest.takeWhile Char.isDigit
    if digits.isEmpty then none
    else
      let kept := digits.take 9
      some (Digits.value kept * Nat.pow 10 (9 - kept.length), rest.drop digits.length)
  | cs => some (0, cs)

def pointMillis : List Char → Option (Nat × List Char)
  | '.' :: rest => exactly 3 rest
  | cs => some (0, cs)

/-- A sign, two digits for the hours, what `skip` makes of the text between, and two digits for
the minutes below sixty. The minus sign proper counts as a hyphen. -/
def zone (skip : List Char → Option (List Char)) : List Char → Option (Int × List Char)
  | [] => none
  | sign :: cs => do
    let negative ←
      if sign == '+' then some false
      else if sign == '-' || sign == '−' then some true
      else none
    let (hours, cs) ← exactly 2 cs
    let (minutes, rest) ← exactly 2 (← skip cs)
    if minutes < 60 then
      let seconds : Int := 3600 * hours + 60 * minutes
      some (if negative then -seconds else seconds, rest)
    else none

def literal (c : Char) : List Char → Option (List Char)
  | d :: rest => if c == d then some rest else none
  | [] => none

def colonsAndBlanks (cs : List Char) : Option (List Char) :=
  some (cs.dropWhile fun c => c == ':' || Text.isBlank c)

end DateScan

open Timestamp (Fields)

namespace DateItem

def read (f : Fields) (cs : List Char) : DateItem → Option (Fields × List Char)
  | year => (DateScan.year cs).map fun (n, rest) => ({ f with year := n }, rest)
  | month => (DateScan.bounded 1 12 cs).map fun (n, rest) => ({ f with month := n }, rest)
  | day => (DateScan.bounded 1 31 cs).map fun (n, rest) => ({ f with day := n }, rest)
  | hour => (DateScan.bounded 0 23 cs).map fun (n, rest) => ({ f with hour := n }, rest)
  | minute => (DateScan.bounded 0 59 cs).map fun (n, rest) => ({ f with minute := n }, rest)
  | second => (DateScan.bounded 0 60 cs).map fun (n, rest) => ({ f with second := n }, rest)
  | millis =>
    (DateScan.exactly 3 cs).map fun (n, rest) => ({ f with nano := n * 1000000 }, rest)
  | pointMillis =>
    (DateScan.pointMillis cs).map fun (n, rest) => ({ f with nano := n * 1000000 }, rest)
  | fraction => (DateScan.fraction cs).map fun (n, rest) => ({ f with nano := n }, rest)
  | offset =>
    (DateScan.zone DateScan.colonsAndBlanks (Text.trimLeft cs)).map
      fun (n, rest) => ({ f with offset := n }, rest)
  | blank => some (f, Text.trimLeft cs)
  | literal c => (DateScan.literal c cs).map fun rest => (f, rest)

end DateItem

abbrev DatePattern := List DateItem

namespace DatePattern

def mask (p : DatePattern) : String := String.join (p.map DateItem.mask)

def directives (p : DatePattern) : String := String.join (p.map DateItem.directive)

def write (p : DatePattern) (m : Moment) (zone : Int) : String :=
  String.ofList (p.flatMap (DateItem.write m zone))

def readFrom (f : Fields) (cs : List Char) : DatePattern → Option (Fields × List Char)
  | [] => some (f, cs)
  | item :: rest => do
    let (f, cs) ← item.read f cs
    readFrom f cs rest

/-- The fields of a text that the pattern covers to its end. -/
def read? (p : DatePattern) (cs : List Char) : Option Fields := do
  let (f, rest) ← readFrom Fields.zero cs p
  if rest.isEmpty then some f else none

end DatePattern

end RecordSearch
