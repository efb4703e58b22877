import RecordSearch.Json.Printer
import RecordSearch.Search.Error

/-!
What can be wrong with the JSON of searches, schemas and records: each cause, and its wording in
one place.
-/

namespace RecordSearch

/-- The parts whose JSON has to be of one form. -/
inductive JsonPart where
  | search
  | node
  | conditions
  | field
  | schema
  | records
  | record
deriving DecidableEq

def JsonPart.demand : JsonPart → String
  | search => "a search must be a JSON object"
  | node => "a query node must be a JSON object"
  | conditions => "'conditions' must be an array"
  | field => "'field' must be a string"
  | schema => "a schema must be a JSON object of field types"
  | records => "records must be a JSON array"
  | record => "a record must be a JSON object"

/-- What is written as a code or a name. -/
inductive CodeKind where
  | operation
  | connective
  | case
  | format
deriving DecidableEq

def CodeKind.name : CodeKind → String
  | operation => "operation"
  | connective => "operator"
  | case => "case"
  | format => "format"

inductive WireError where
  | notJson
  | query (error : QueryError)
  | unreadable (reason : String)
  | malformed (part : JsonPart)
  | ambiguousNode (node : Json)
  | unknownCode (kind : CodeKind) (code : Json)
  | invalidValue (field : String) (value : Json)

namespace WireError

def message : WireError → String
  | notJson => "JSON error"
  | query e => "Invalid search: " ++ e.message
  | unreadable reason => "IO error: " ++ reason
  | malformed part => "Malformed input: " ++ part.demand
  | ambiguousNode node => "Node has neither 'conditions' nor 'field': " ++ node.text
  | unknownCode kind code => "Unknown " ++ kind.name ++ ": " ++ code.text
  | invalidValue field value => "Invalid value for '" ++ field ++ "': " ++ value.text

/-- The message and the messages of the causes behind it, which it repeats. -/
def chain (e : WireError) : List String :=
  e.message ::
    match e with
    | query cause => [cause.message]
    | unreadable reason => [reason]
    | _ => []

end WireError

end RecordSearch
