import RecordSearch.Schema.FieldType

/-!
Schemas: the named and typed fields of a record, in order. The position of a field is also the
position of its value in a row.
-/

namespace RecordSearch

structure Field where
  name : String
  type : FieldType
deriving DecidableEq

structure Schema where
  fields : List Field
deriving DecidableEq

namespace Schema

def ofPairs (pairs : List (String × FieldType)) : Schema := ⟨pairs.map fun (n, t) => ⟨n, t⟩⟩

/-- The position of a name. An exact match goes before one that ignores case. -/
def index? (s : Schema) (name : String) : Option Nat :=
  (s.fields.findIdx? fun f => f.name == name).or
    (s.fields.findIdx? fun f => Ascii.same f.name name)

def resolve? (s : Schema) (name : String) : Option (Nat × Field) := do
  let index ← s.index? name
  return (index, ← s.fields[index]?)

end Schema

end RecordSearch
