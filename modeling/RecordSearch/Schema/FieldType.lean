import RecordSearch.Text.Ascii
import RecordSearch.Text.Blank
import RecordSearch.Number.Width

/-!
Declared types of record fields: their text and its reader. Every text is a type; one that means
nothing is kept as it is, and conditions on such a field are refused.
-/

namespace RecordSearch

/-- Members keep the order and the spelling of their declaration. -/
structure EnumType where
  name : String
  members : List String
deriving DecidableEq

/-- The declared spelling of a member. An exact match goes before one that ignores case. -/
def EnumType.member? (e : EnumType) (name : String) : Option String :=
  (e.members.find? (· == name)).or (e.members.find? fun m => Ascii.same m name)

inductive FieldType where
  | unit
  | string
  | char
  | number (width : Width)
  | boolean
  | dateTime
  | date
  | enum (type : EnumType)
  | optional (inner : FieldType)
  | list (element : FieldType)
  | other (text : String)
deriving DecidableEq

namespace FieldType

/-- The type without any marks that it may be null. -/
def unwrap : FieldType → FieldType
  | optional inner => inner.unwrap
  | t => t

def isList (t : FieldType) : Bool :=
  match t.unwrap with
  | list _ => true
  | _ => false

def text : FieldType → String
  | unit => "unit"
  | string => "string"
  | char => "char"
  | number w => w.name
  | boolean => "bool"
  | dateTime => "datetime"
  | date => "date"
  | enum e => "enum " ++ e.name ++ "(" ++ String.intercalate ", " e.members ++ ")"
  | optional inner => inner.text ++ "?"
  | list element => "[" ++ element.text ++ "]"
  | other s => s

/-- The names of simple types, in lower case. -/
def names : List (String × FieldType) :=
  [("()", unit), ("unit", unit), ("null", unit),
   ("string", string), ("str", string), ("text", string), ("char", char),
   ("i8", number .i8), ("sbyte", number .i8), ("i16", number .i16), ("short", number .i16),
   ("i32", number .i32), ("int", number .i32), ("i64", number .i64), ("long", number .i64),
   ("u8", number .u8), ("byte", number .u8), ("u16", number .u16), ("ushort", number .u16),
   ("u32", number .u32), ("uint", number .u32), ("u64", number .u64), ("ulong", number .u64),
   ("f32", number .f32), ("float", number .f32), ("f64", number .f64), ("double", number .f64),
   ("decimal", number .decimal), ("bool", boolean), ("boolean", boolean),
   ("datetime", dateTime), ("timestamp", dateTime), ("date", date)]

/-- The text without a last character that is `c`. -/
def dropLast? (c : Char) (cs : List Char) : Option (List Char) :=
  if cs.getLast? = some c then some cs.dropLast else none

theorem length_dropLast?_lt {c : Char} {cs inner : List Char} (h : dropLast? c cs = some inner) :
    inner.length < cs.length := by
  unfold dropLast? at h
  split at h
  · next hl =>
    obtain rfl := Option.some.inj h
    cases cs with
    | nil => simp at hl
    | cons => simp
  · simp at h

/-- A name, and after an opening parenthesis the members up to a closing one at the end. Members
stand between commas; blank ones do not count, but there has to be one. -/
def readEnum? (cs : List Char) : Option EnumType := do
  match cs.dropWhile (· != '(') with
  | [] => none
  | _ :: rest =>
    let body ← dropLast? ')' (Text.trimRight rest)
    let name := Text.trim (cs.takeWhile (· != '('))
    let members := ((body.splitOn ',').map Text.trim).filter fun m => !m.isEmpty
    if name.isEmpty || members.isEmpty then none
    else some ⟨String.ofList name, members.map String.ofList⟩

def readName (cs : List Char) : FieldType :=
  (names.lookup (Ascii.lower (String.ofList cs))).getD (other (String.ofList cs))

/-- The text of the element type between brackets. -/
def element? : List Char → Option (List Char)
  | '[' :: rest => dropLast? ']' rest
  | _ => none

theorem length_element?_lt {cs inner : List Char} (h : element? cs = some inner) :
    inner.length < cs.length := by
  unfold element? at h
  split at h
  · exact Nat.lt_succ_of_lt (length_dropLast?_lt h)
  · cases h

/-- A question mark at the end, brackets around an element type, the word `enum`, or a name. -/
def read (text : List Char) : FieldType :=
  let cs := Text.trim text
  match h : dropLast? '?' cs with
  | some inner =>
    have : inner.length < text.length :=
      Nat.lt_of_lt_of_le (length_dropLast?_lt h) (Text.length_trim_le text)
    optional (read inner)
  | none =>
    match h : element? cs with
    | some inner =>
      have : inner.length < text.length :=
        Nat.lt_of_lt_of_le (length_element?_lt h) (Text.length_trim_le text)
      list (read inner)
    | none =>
      if ['e', 'n', 'u', 'm', ' '].isPrefixOf cs then
        ((readEnum? (cs.drop 5)).map enum).getD (other (String.ofList cs))
      else readName cs
termination_by text.length

def ofText (s : String) : FieldType := read s.toList

end FieldType

end RecordSearch
