import RecordSearch.Schema.Basic
import RecordSearch.Search.Error

/-!
The field that a condition is about: found in the schema by name and classified by its type. A
list of scalars counts as its elements, compared one by one; a list of lists has no kind.
-/

namespace RecordSearch

/-- The kind of a type without a mark for null. -/
def FieldType.scalarKind? : FieldType → Option Kind
  | unit => some .null
  | string | char => some .string
  | number _ => some .number
  | boolean => some .boolean
  | dateTime | date => some .date
  | enum _ => some .enumerated
  | optional _ | list _ | other _ => none

/-- With `asElement` a list is classified by the type of its elements. -/
def FieldType.kind (t : FieldType) (asElement : Bool) : Except QueryError Kind :=
  let named (t : FieldType) : Except QueryError Kind :=
    match t.unwrap.scalarKind? with
    | some kind => .ok kind
    | none => .error (.unknownType t.unwrap.text)
  match t.unwrap with
  | list element => if asElement then named element else named t
  | _ => named t

/-- The name is the declared one, and the type is freed of marks for null and of one list. -/
structure Target where
  index : Nat
  name : String
  kind : Kind
  type : FieldType
  many : Bool

namespace Target

def scalarType (t : FieldType) : FieldType :=
  match t.unwrap with
  | .list element => element.unwrap
  | scalar => scalar

def find (s : Schema) (name : String) : Except QueryError Target := do
  let some (index, field) := s.resolve? name | throw (.unknownField name)
  let many := field.type.isList
  let kind ← field.type.kind many
  return ⟨index, field.name, kind, scalarType field.type, many⟩

def width? (t : Target) : Option Width :=
  match t.type with
  | .number width => some width
  | _ => none

def enum? (t : Target) : Option EnumType :=
  match t.type with
  | .enum type => some type
  | _ => none

end Target

end RecordSearch
