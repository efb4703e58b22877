import RecordSearch.Json.Reader
import RecordSearch.Search.Tree
import RecordSearch.Text.Blank
import RecordSearch.Wire.Error
import RecordSearch.Wire.Number

/-!
Searches as JSON. A node with a field `conditions` is a group, and any other with a field `field`
is a condition; names of fields count in any case. Operations, connectives, case modes and
formats are written as codes and read as codes or names. An instant is written in the format of
its condition, so what is read back compares in the same way.
-/

namespace RecordSearch

/-- A code as a number or in a string, or a name in a string. -/
def readCode {α : Type} (kind : CodeKind) (ofCode? : Int → Option α) (ofName? : String → Option α)
    (j : Json) : Except WireError α :=
  let found := match j with
    | .number t => (readInt64? t).bind fun n => ofCode? n.toInt
    | .string s =>
      let name := String.ofList (Text.trim s.toList)
      (ofName? name).or ((readInt64? name).bind fun n => ofCode? n.toInt)
    | _ => none
  match found with
  | some a => .ok a
  | none => .error (.unknownCode kind j)

/-- The code or name under one of the names, or the default of the type if there is none. -/
def readCodeAt {α : Type} [Inhabited α] (fields : List (String × Json)) (name : String)
    (read : Json → Except WireError α) : Except WireError α :=
  match Json.find? fields name with
  | some j => read j
  | none => .ok default

def Connective.ofJson (j : Json) : Except WireError Connective :=
  readCode .connective ofCode? ofName? j

def CaseMode.ofJson (j : Json) : Except WireError CaseMode := readCode .case ofCode? ofName? j

def DateFormat.ofJson (j : Json) : Except WireError DateFormat :=
  readCode .format ofCode? ofName? j

/-- An integer that is no code of an operation is an error of its own. -/
def Operation.ofJson (j : Json) : Except WireError Operation :=
  let code? := match j with
    | .number t => readInt64? t
    | _ => none
  match code? with
  | some n =>
    match ofCode? n.toInt with
    | some o => .ok o
    | none => .error (.query (.unknownOperation n.toInt))
  | none => readCode .operation ofCode? ofName? j

/-- An operand of a condition on the field. Arrays and objects are none. -/
def Value.ofOperand (field : String) : Json → Except WireError Value
  | .null => .ok .null
  | .bool b => .ok (.boolean b)
  | .number t =>
    match Number.ofJsonText? t with
    | some n => .ok (.number n)
    | none => .error (.invalidValue field (.number t))
  | .string s => .ok (.text s)
  | j => .error (.invalidValue field j)

namespace Condition

/-- One operand may stand without an array. -/
def readValues (field : String) (fields : List (String × Json)) :
    Except WireError (List Value) :=
  match Json.find? fields "values" with
  | none => .ok []
  | some (.array items) => items.mapM (Value.ofOperand field)
  | some j => (Value.ofOperand field j).map fun v => [v]

def readCase (fields : List (String × Json)) : Except WireError CaseMode :=
  match (Json.find? fields "case").or (Json.find? fields "incase") with
  | some j => CaseMode.ofJson j
  | none => .ok default

def ofFields (fields : List (String × Json)) : Except WireError Condition := do
  let some (.string field) := Json.find? fields "field" | throw (.malformed .field)
  let operation ← readCodeAt fields "operation" Operation.ofJson
  let values ← readValues field fields
  let case ← readCase fields
  let c ← (make field operation values).mapError .query
  let format ← match Json.find? fields "format" with
    | some j => (DateFormat.ofJson j).map some
    | none => .ok none
  return { c with case, format }

end Condition

namespace Node

mutual

def ofJson : Json → Except WireError Node
  | .object fields =>
    if Json.has fields "conditions" then do
      let connective ← readCodeAt fields "operator" Connective.ofJson
      let children ← childrenOf fields
      return .group connective children
    else if Json.has fields "field" then (Condition.ofFields fields).map .condition
    else .error (.ambiguousNode (.object fields))
  | _ => .error (.malformed .node)

/-- The nodes in the array under `conditions`; none if there is no such field or it is null. -/
def childrenOf : List (String × Json) → Except WireError (List Node)
  | [] => .ok []
  | (name, value) :: rest =>
    if Ascii.same name "conditions" then
      match value with
      | .null => .ok []
      | .array items => ofItems items
      | _ => .error (.malformed .conditions)
    else childrenOf rest

def ofItems : List Json → Except WireError (List Node)
  | [] => .ok []
  | item :: rest => do
    let first ← ofJson item
    let others ← ofItems rest
    return first :: others

end

end Node

namespace Search

def ofJson : Json → Except WireError Search
  | .object fields => do
    let connective ← readCodeAt fields "operator" Connective.ofJson
    let children ← Node.childrenOf fields
    let format ← readCodeAt fields "format" DateFormat.ofJson
    return ⟨connective, children, format⟩
  | _ => .error (.malformed .search)

def ofText (s : String) : Except WireError Search :=
  match Json.read? s with
  | some j => ofJson j
  | none => .error .notJson

end Search

def Json.ofInt (n : Int) : Json := .number (Digits.intText n)

namespace Value

mutual

def json (format : DateFormat) : Value → Json
  | null => .null
  | boolean b => .bool b
  | number n => n.json
  | text s => .string s
  | instant t => .string (format.render t)
  | member _ m => .string m
  | list items => .array (jsonItems format items)

def jsonItems (format : DateFormat) : List Value → List Json
  | [] => []
  | item :: rest => json format item :: jsonItems format rest

end

end Value

/-- The fields are in the order of their names. -/
def Condition.json (defaultFormat : DateFormat) (c : Condition) : Json :=
  let format := match c.format with
    | some f => [("Format", Json.ofInt f.code)]
    | none => []
  .object (
    [("Case", Json.ofInt c.case.code), ("Field", .string c.field)] ++ format ++
    [("Operation", Json.ofInt c.operation.code),
     ("Values", .array (Value.jsonItems (c.format.getD defaultFormat) c.values))])

namespace Node

mutual

def json (defaultFormat : DateFormat) : Node → Json
  | condition c => c.json defaultFormat
  | group connective children =>
    .object
      [("Conditions", .array (jsonItems defaultFormat children)),
       ("Operator", Json.ofInt connective.code)]

def jsonItems (defaultFormat : DateFormat) : List Node → List Json
  | [] => []
  | child :: rest => json defaultFormat child :: jsonItems defaultFormat rest

end

end Node

namespace Search

def json (s : Search) : Json :=
  .object
    [("Conditions", .array (Node.jsonItems s.format s.children)),
     ("Format", Json.ofInt s.format.code),
     ("Operator", Json.ofInt s.connective.code)]

def text (s : Search) : String := s.json.text

end Search

end RecordSearch
