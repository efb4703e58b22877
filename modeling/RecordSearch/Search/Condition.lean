import RecordSearch.Search.Error

/-!
Conditions: one field, one operation and its operands, with a mode of case folding and perhaps a
date format of their own.
-/

namespace RecordSearch

structure Condition where
  field : String
  operation : Operation
  values : List Value
  case : CaseMode
  format : Option DateFormat

namespace Condition

/-- Takes the text as it is and the date format of the search. -/
def plain (field : String) (operation : Operation) (values : List Value) : Condition :=
  ⟨field, operation, values, .default, none⟩

/-- A condition whose operation takes as many operands as there are. -/
def make (field : String) (operation : Operation) (values : List Value) :
    Except QueryError Condition := do
  operation.checkArity values.length
  return plain field operation values

def withCase (c : Condition) (mode : CaseMode) : Condition := { c with case := mode }

def withFormat (c : Condition) (format : DateFormat) : Condition := { c with format := some format }

/-- The operation takes the operands that there are. -/
def HasArity (c : Condition) : Prop := c.operation.arity.accepts c.values.length = true

instance (c : Condition) : Decidable c.HasArity :=
  inferInstanceAs (Decidable (c.operation.arity.accepts c.values.length = true))

theorem hasArity_of_make {field : String} {operation : Operation} {values : List Value}
    {c : Condition} (h : make field operation values = .ok c) : c.HasArity := by
  unfold make Operation.checkArity at h
  split at h
  · next ha =>
    cases h
    exact ha
  · cases h

variable (field : String) (value low high : Value)

/-- With a null this asks for null fields. -/
def equal : Condition := plain field .equal [value]

/-- With a null this asks for fields that are not null. -/
def notEqual : Condition := plain field .notEqual [value]

def lessThan : Condition := plain field .lessThan [value]

def lessThanOrEqual : Condition := plain field .lessThanOrEqual [value]

def greaterThan : Condition := plain field .greaterThan [value]

def greaterThanOrEqual : Condition := plain field .greaterThanOrEqual [value]

def contains : Condition := plain field .contains [value]

def notContains : Condition := plain field .notContains [value]

def startsWith : Condition := plain field .startsWith [value]

def notStartsWith : Condition := plain field .notStartsWith [value]

def endsWith : Condition := plain field .endsWith [value]

def notEndsWith : Condition := plain field .notEndsWith [value]

/-- Both bounds belong to the range. -/
def between : Condition := plain field .between [low, high]

def notBetween : Condition := plain field .notBetween [low, high]

def isNull : Condition := equal field .null

def isNotNull : Condition := notEqual field .null

instance : BEq Condition where
  beq a b := a.field == b.field && a.operation == b.operation && a.values == b.values &&
    a.case == b.case && a.format == b.format

end Condition

end RecordSearch
