import RecordSearch.Json.Basic
import RecordSearch.Text.Digits

/-!
JSON values from text. Arrays and objects may nest 127 deep. A number keeps its digits, and its
exponent is brought to the form of a small `e` with a sign.

Readers take the characters that remain and return what they read with the rest. The ones that
read texts also take the character `lone` that stands for half a surrogate pair; without one a half
is an error.
-/

namespace RecordSearch.Json

def skipBlanks (cs : List Char) : List Char :=
  cs.dropWhile fun c => c == ' ' || c == '\t' || c == '\n' || c == '\r'

/-- Digits, at least one. -/
def readDigits (cs : List Char) : Option (List Char × List Char) :=
  let digits := cs.takeWhile Char.isDigit
  if digits.isEmpty then none else some (digits, cs.dropWhile Char.isDigit)

/-- A zero at the front is the whole of it. -/
def readWhole (cs : List Char) : Option (List Char × List Char) := do
  let (digits, rest) ← readDigits cs
  match digits with
  | '0' :: _ :: _ => none
  | _ => some (digits, rest)

def readFraction : List Char → Option (List Char × List Char)
  | '.' :: cs => (readDigits cs).map fun (digits, rest) => ('.' :: digits, rest)
  | cs => some ([], cs)

def readExponent : List Char → Option (List Char × List Char)
  | c :: cs =>
    if c == 'e' || c == 'E' then
      let (sign, cs) := match cs with
        | '-' :: rest => ('-', rest)
        | '+' :: rest => ('+', rest)
        | rest => ('+', rest)
      (readDigits cs).map fun (digits, rest) => ('e' :: sign :: digits, rest)
    else some ([], c :: cs)
  | [] => some ([], [])

def readNumber (cs : List Char) : Option (String × List Char) := do
  let (sign, cs) := match cs with
    | '-' :: rest => (['-'], rest)
    | rest => ([], rest)
  let (whole, cs) ← readWhole cs
  let (fraction, cs) ← readFraction cs
  let (exponent, cs) ← readExponent cs
  return (String.ofList (sign ++ whole ++ fraction ++ exponent), cs)

def hexValue? (c : Char) : Option Nat :=
  if c.isDigit then some (c.toNat - '0'.toNat)
  else if 'a' ≤ c ∧ c ≤ 'f' then some (c.toNat - 'a'.toNat + 10)
  else if 'A' ≤ c ∧ c ≤ 'F' then some (c.toNat - 'A'.toNat + 10)
  else none

def readUnit : List Char → Option (Nat × List Char)
  | a :: b :: c :: d :: rest => do
    return (((← hexValue? a) * 16 + (← hexValue? b)) * 256 + (← hexValue? c) * 16 + (← hexValue? d),
      rest)
  | _ => none

/-- The escape of the second half of a surrogate pair. -/
def readLowHalf : List Char → Option (Nat × List Char)
  | '\\' :: 'u' :: cs => (readUnit cs).filter fun (low, _) => 0xDC00 ≤ low ∧ low ≤ 0xDFFF
  | _ => none

/-- The character after `\u`, which takes a second escape when it lies beyond 16 bits. -/
def readCodePoint (lone : Option Char) (cs : List Char) : Option (Char × List Char) := do
  let (unit, rest) ← readUnit cs
  if unit < 0xD800 ∨ 0xDFFF < unit then some (Char.ofNat unit, rest)
  else if 0xDC00 ≤ unit then lone.map (·, rest)
  else match readLowHalf rest with
    | some (low, rest) =>
      some (Char.ofNat (0x10000 + (unit - 0xD800) * 0x400 + (low - 0xDC00)), rest)
    | none => lone.map (·, rest)

def readEscape (lone : Option Char) : List Char → Option (Char × List Char)
  | [] => none
  | c :: rest =>
    match c with
    | '"' => some ('"', rest)
    | '\\' => some ('\\', rest)
    | '/' => some ('/', rest)
    | 'b' => some (Char.ofNat 8, rest)
    | 'f' => some (Char.ofNat 12, rest)
    | 'n' => some ('\n', rest)
    | 'r' => some ('\r', rest)
    | 't' => some ('\t', rest)
    | 'u' => readCodePoint lone rest
    | _ => none

/-- What follows the opening quote, up to the closing one. Each step takes a character at least,
so `fuel` of one more than remain is enough. -/
def readCharacters (lone : Option Char) : Nat → List Char → Option (List Char × List Char)
  | 0, _ => none
  | _ + 1, [] => none
  | fuel + 1, c :: rest =>
    if c == '"' then some ([], rest)
    else if c == '\\' then do
      let (d, rest) ← readEscape lone rest
      let (ds, rest) ← readCharacters lone fuel rest
      return (d :: ds, rest)
    else if c.toNat < 32 then none
    else do
      let (ds, rest) ← readCharacters lone fuel rest
      return (c :: ds, rest)

def readString (lone : Option Char) (fuel : Nat) : List Char → Option (String × List Char)
  | '"' :: rest => (readCharacters lone fuel rest).map fun (s, rest) => (String.ofList s, rest)
  | _ => none

def readWord (word : List Char) (value : Json) (cs : List Char) : Option (Json × List Char) :=
  if word.isPrefixOf cs then some (value, cs.drop word.length) else none

mutual

/-- A value, with `depth` levels of nesting left. -/
def readValue (lone : Option Char) (depth : Nat) : Nat → List Char → Option (Json × List Char)
  | 0, _ => none
  | fuel + 1, cs =>
    match skipBlanks cs with
    | [] => none
    | '[' :: rest => if depth = 0 then none else
      match skipBlanks rest with
      | ']' :: rest => some (array [], rest)
      | rest => (readItems lone (depth - 1) fuel rest).map fun (items, rest) => (array items, rest)
    | '\x7b' :: rest => if depth = 0 then none else
      match skipBlanks rest with
      | '\x7d' :: rest => some (ofFields [], rest)
      | rest =>
        (readFields lone (depth - 1) fuel rest).map fun (fields, rest) => (ofFields fields, rest)
    | '"' :: rest => (readString lone fuel ('"' :: rest)).map fun (s, rest) => (string s, rest)
    | c :: rest =>
      if c == 'n' then readWord ['n', 'u', 'l', 'l'] null (c :: rest)
      else if c == 't' then readWord ['t', 'r', 'u', 'e'] (bool true) (c :: rest)
      else if c == 'f' then readWord ['f', 'a', 'l', 's', 'e'] (bool false) (c :: rest)
      else (readNumber (c :: rest)).map fun (text, rest) => (number text, rest)

/-- One value or more with commas between, up to the closing bracket. -/
def readItems (lone : Option Char) (depth : Nat) : Nat → List Char → Option (List Json × List Char)
  | 0, _ => none
  | fuel + 1, cs =>
    match readValue lone depth fuel cs with
    | none => none
    | some (item, rest) =>
      match skipBlanks rest with
      | ',' :: rest =>
        (readItems lone depth fuel rest).map fun (items, rest) => (item :: items, rest)
      | ']' :: rest => some ([item], rest)
      | _ => none

/-- One field or more with commas between, up to the closing brace. -/
def readFields (lone : Option Char) (depth : Nat) :
    Nat → List Char → Option (List (String × Json) × List Char)
  | 0, _ => none
  | fuel + 1, cs =>
    match readString lone fuel (skipBlanks cs) with
    | none => none
    | some (name, rest) =>
      match skipBlanks rest with
      | ':' :: rest =>
        match readValue lone depth fuel rest with
        | none => none
        | some (value, rest) =>
          match skipBlanks rest with
          | ',' :: rest =>
            (readFields lone depth fuel rest).map fun (fields, rest) =>
              ((name, value) :: fields, rest)
          | '\x7d' :: rest => some ([(name, value)], rest)
          | _ => none
      | _ => none

end

def maxDepth : Nat := 127

/-- Every level of nesting and every item takes a character, so the readers call each other no
more than twice for each, and what is left of it where a text begins is enough for the text. -/
def fuelFor (cs : List Char) : Nat := 2 * cs.length + 2

/-- The value that the text is, with nothing but blanks around it. -/
def read? (s : String) : Option Json := do
  let cs := s.toList
  let (value, rest) ← readValue none maxDepth (fuelFor cs) cs
  if (skipBlanks rest).isEmpty then some value else none

end RecordSearch.Json
