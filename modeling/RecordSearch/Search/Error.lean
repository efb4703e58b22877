import RecordSearch.Schema.Kind
import RecordSearch.Search.Operation
import RecordSearch.Value

/-!
What can be wrong with a search: each cause, and its wording in one place.
-/

namespace RecordSearch

inductive QueryError where
  | invalidOperand (field : String) (operation : Operation) (value : Value)
  | unsupportedOperation (kind : Kind) (operation : Operation)
  | arity (operation : Operation) (expected : Arity) (actual : Nat)
  | unknownField (field : String)
  | unknownType (type : String)
  | unknownOperation (code : Int)

def QueryError.message : QueryError → String
  | invalidOperand field operation value =>
    "Invalid operand for " ++ operation.name ++ " on field '" ++ field ++ "': " ++ value.display
  | unsupportedOperation kind operation =>
    "Operation " ++ operation.name ++ " is not supported for " ++ kind.name ++ " fields"
  | arity operation expected actual =>
    "Operation " ++ operation.name ++ " expects " ++ expected.text ++ " values, got " ++
      Nat.repr actual
  | unknownField field => "Unknown field: " ++ field
  | unknownType type => "Unknown field type: " ++ type
  | unknownOperation code => "Unknown operation code: " ++ Digits.intText code

def Operation.checkArity (o : Operation) (count : Nat) : Except QueryError Unit :=
  if o.arity.accepts count then .ok () else .error (.arity o o.arity count)

end RecordSearch
