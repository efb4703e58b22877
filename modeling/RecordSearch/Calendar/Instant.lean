import RecordSearch.Calendar.DateFormat

/-!
The texts of an instant: the one that is written, and the four forms that are read. Where no
offset is given it is universal time, and where no time is given it is midnight.
-/

namespace RecordSearch.Timestamp

def text (t : Timestamp) : String :=
  (DateFormat.dayAndTime ++ [.fraction, .offset] : DatePattern).write t.atLocal t.offset

/-- A date and a time, each number with all its digits, and an offset of less than a day. -/
def readStrict? (cs : List Char) : Option Timestamp := do
  let (year, cs) ← DateScan.exactly 4 cs
  let cs ← DateScan.literal '-' cs
  let (month, cs) ← DateScan.exactly 2 cs
  let cs ← DateScan.literal '-' cs
  let (day, cs) ← DateScan.exactly 2 cs
  let cs ← match cs with
    | c :: rest => if c == 'T' || c == 't' || c == ' ' then some rest else none
    | [] => none
  let (hour, cs) ← DateScan.exactly 2 cs
  let cs ← DateScan.literal ':' cs
  let (minute, cs) ← DateScan.exactly 2 cs
  let cs ← DateScan.literal ':' cs
  let (second, cs) ← DateScan.exactly 2 cs
  let (nano, cs) ← DateScan.fraction cs
  let (offset, cs) ← match cs with
    | 'Z' :: rest => some (0, rest)
    | 'z' :: rest => some (0, rest)
    | cs => DateScan.zone (DateScan.literal ':') cs
  if cs.isEmpty then ofFields? ⟨year, month, day, hour, minute, second, nano, offset⟩ else none

/-- The looser forms: date and time with `T` or a blank between, or the date alone. -/
def loosePatterns : List DatePattern :=
  [DateFormat.dayAndTime ++ [.fraction],
   DateFormat.day ++ .blank :: (DateFormat.time ++ [.fraction]),
   DateFormat.day]

def readLoose? (cs : List Char) : Option Timestamp :=
  loosePatterns.findSome? fun p => (p.read? cs).bind ofFields?

/-- Blanks around the text do not count. -/
def ofText? (s : String) : Option Timestamp :=
  let cs := Text.trim s.toList
  (readStrict? cs).or (readLoose? cs)

end RecordSearch.Timestamp
