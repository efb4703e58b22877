import RecordSearch.Schema.Basic
import RecordSearch.Json.Reader
import RecordSearch.Wire.Error
import RecordSearch.Wire.Number

/-!
Records and schemas as JSON. Each field of a schema reads its value by its type, and null is a
value of every type. A record is kept with its row, so it can be written as it was read.
-/

namespace RecordSearch

namespace Value

mutual

/-- A value of a field whose type has no meaning. Objects are none. -/
def ofUntyped (field : String) : Json → Except WireError Value
  | .null => .ok .null
  | .bool b => .ok (.boolean b)
  | .number t =>
    match Number.ofJsonText? t with
    | some n => .ok (.number n)
    | none => .error (.invalidValue field (.number t))
  | .string s => .ok (.text s)
  | .array items => (ofUntypedItems field items).map .list
  | j => .error (.invalidValue field j)

def ofUntypedItems (field : String) : List Json → Except WireError (List Value)
  | [] => .ok []
  | item :: rest => do
    let first ← ofUntyped field item
    let others ← ofUntypedItems field rest
    return first :: others

end

/-- A value that is neither null nor a list, of a type without marks for null. -/
def ofScalar? (type : FieldType) (j : Json) : Option Value :=
  match type, j with
  | .string, .string s => some (.text s)
  | .char, .string s => some (.text s)
  | .number width, .number t =>
    ((Number.ofJsonText? t).bind width.coerce?).map .number
  | .number width, .string s =>
    ((Decimal.ofText? (String.ofList (Text.trim s.toList))).bind
      fun d => width.coerce? (.decimal d)).map .number
  | .boolean, .bool b => some (.boolean b)
  | .dateTime, .string s => (Timestamp.ofText? s).map .instant
  | .date, .string s => (Timestamp.ofText? s).map .instant
  | .enum e, .string s => (e.member? s).map fun m => .member e.name m
  | .enum e, .number t =>
    (readUInt64? t).bind fun i => (e.members[i.toNat]?).map fun m => .member e.name m
  | _, _ => none

mutual

/-- The value of a field of a type. The error names the innermost value that does not fit. -/
def ofJson (field : String) (type : FieldType) : Json → Except WireError Value
  | .null => .ok .null
  | .array items =>
    match type.unwrap with
    | .list element => (ofItems field element items).map .list
    | .other _ => ofUntyped field (.array items)
    | _ => .error (.invalidValue field (.array items))
  | j =>
    match type.unwrap with
    | .other _ => ofUntyped field j
    | t =>
      match ofScalar? t j with
      | some v => .ok v
      | none => .error (.invalidValue field j)

def ofItems (field : String) (type : FieldType) : List Json → Except WireError (List Value)
  | [] => .ok []
  | item :: rest => do
    let first ← ofJson field type item
    let others ← ofItems field type rest
    return first :: others

end

end Value

/-- The JSON of a field: under its very name, or else under the first name that differs in case
alone, or null. -/
def Field.select (f : Field) (fields : List (String × Json)) : Json :=
  ((fields.find? fun p => p.1 == f.name).or (fields.find? fun p => Ascii.same p.1 f.name)).elim
    .null (·.2)

/-- Fields that the schema does not have are left out. -/
def Row.ofJson (s : Schema) : Json → Except WireError Row
  | .object fields => s.fields.mapM fun f => Value.ofJson f.name f.type (f.select fields)
  | _ => .error (.malformed .record)

structure JsonRecord where
  raw : Json
  row : Row

namespace JsonRecord

def ofJson (s : Schema) (raw : Json) : Except WireError JsonRecord := do
  return ⟨raw, ← Row.ofJson s raw⟩

/-- The records of an array. One that does not load is an error for all. -/
def readAll (s : Schema) (text : String) : Except WireError (List JsonRecord) :=
  match Json.read? text with
  | some (.array items) => items.mapM (ofJson s)
  | some _ => .error (.malformed .records)
  | none => .error .notJson

end JsonRecord

namespace Schema

def fieldOfJson (name : String) : Json → Except WireError Field
  | .string type => .ok ⟨name, FieldType.ofText type⟩
  | j => .error (.invalidValue name j)

/-- The fields are in the order of their names. -/
def ofText (s : String) : Except WireError Schema :=
  match Json.read? s with
  | some (.object fields) =>
    (fields.mapM fun (name, type) => fieldOfJson name type).map fun fs => ⟨fs⟩
  | some _ => .error (.malformed .schema)
  | none => .error .notJson

end Schema

end RecordSearch
