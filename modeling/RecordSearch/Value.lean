import RecordSearch.Number.Width
import RecordSearch.Calendar.Instant

/-!
The values that record fields hold and that conditions compare with. Equality of values compares
numbers by their value and instants without their offsets.
-/

namespace RecordSearch

inductive Value where
  | null
  | boolean (value : Bool)
  | number (value : Number)
  | text (value : String)
  | instant (value : Timestamp)
  | member (enumName member : String)
  | list (items : List Value)

namespace Value

def isNull : Value → Bool
  | null => true
  | _ => false

theorem isNull_iff {v : Value} : v.isNull = true ↔ v = null := by
  cases v <;> simp [isNull]

theorem isNull_eq_false_iff {v : Value} : v.isNull = false ↔ v ≠ null := by
  cases v <;> simp [isNull]

def kindName : Value → String
  | null => "null"
  | boolean _ => "boolean"
  | number _ => "number"
  | text _ => "string"
  | instant _ => "date"
  | member _ _ => "enum"
  | list _ => "list"

def text? : Value → Option String
  | text s => some s
  | _ => none

def boolean? : Value → Option Bool
  | boolean b => some b
  | _ => none

def number? : Value → Option Number
  | number n => some n
  | _ => none

mutual

def same : Value → Value → Bool
  | null, null => true
  | boolean a, boolean b => a == b
  | number a, number b => a == b
  | text a, text b => a == b
  | instant a, instant b => a == b
  | member e a, member f b => e == f && a == b
  | list xs, list ys => sameItems xs ys
  | _, _ => false

def sameItems : List Value → List Value → Bool
  | [], [] => true
  | x :: xs, y :: ys => same x y && sameItems xs ys
  | _, _ => false

end

instance : BEq Value := ⟨same⟩

mutual

/-- The text in messages. A string is put between quotes just as it is. -/
def display : Value → String
  | null => "null"
  | boolean b => if b then "true" else "false"
  | number n => n.text
  | text s => "\"" ++ s ++ "\""
  | instant t => t.text
  | member e m => e ++ "::" ++ m
  | list items => "[" ++ String.intercalate ", " (displayItems items) ++ "]"

def displayItems : List Value → List String
  | [] => []
  | item :: rest => display item :: displayItems rest

end

/-- A number of the 32 bit format, widened. -/
def ofSingle (x : Single) : Value := number (.float (x.convert .binary64))

end Value

/-- The values of a record in the order of its schema. -/
abbrev Row := List Value

/-- A value past the end of the row is null. -/
def Row.value (row : Row) (index : Nat) : Value := row[index]?.getD .null

end RecordSearch
