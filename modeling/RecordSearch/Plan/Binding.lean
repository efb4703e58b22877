import RecordSearch.Plan.Comparator
import RecordSearch.Plan.Target
import RecordSearch.Search.Condition

/-!
The expression of one condition. Several operands make a conjunction. A null operand asks whether
the field is null or not in an equality, and in any other operation nothing satisfies it.
-/

namespace RecordSearch

/-- What a null operand makes of an operation. -/
def nullTest (column : Column) : Operation → Expression
  | .equal => .isNull column
  | .notEqual => .isNotNull column
  | _ => .literal false

namespace Comparator

def convert (c : Comparator) (column : Column) (o : Operation) (v : Value) :
    Except QueryError Scalar :=
  match c.operand? o v with
  | some scalar => .ok scalar
  | none => .error (.invalidOperand column.name o v)

/-- A bound of a range; null is a bound that nothing meets. -/
def bound (c : Comparator) (column : Column) (o : Operation) :
    Value → Except QueryError (Option Scalar)
  | .null => .ok none
  | v => (c.convert column o v).map some

def leaf (c : Comparator) (column : Column) (o : Operation) (comparison : Comparison)
    (negated : Bool) : Value → Except QueryError Expression
  | .null => .ok (nullTest column o)
  | v => do
    let operand ← c.convert column o v
    return .compare column (c.projection o) comparison operand negated

/-- Both bounds are converted even if one of them is null. -/
def range (c : Comparator) (column : Column) (o : Operation) (low high : Value) :
    Except QueryError Expression := do
  let low ← c.bound column o low
  let high ← c.bound column o high
  match low, high with
  | some low, some high =>
    return .between column (c.projection o) low high (o == .notBetween)
  | _, _ => return .literal false

/-- The number of operands is checked first, then the operation, then the operands in order. -/
def bind (c : Comparator) (column : Column) (o : Operation) (values : List Value) :
    Except QueryError Expression := do
  o.checkArity values.length
  if !c.supports o then throw (.unsupportedOperation c.kind o)
  match o.comparison?, values with
  | some (comparison, negated), values =>
    return .all (← values.mapM (c.leaf column o comparison negated))
  | none, [low, high] => c.range column o low high
  | none, values => throw (.arity o o.arity values.length)

end Comparator

/-- A field that holds nothing but null meets null tests alone. -/
def bindNull (column : Column) (o : Operation) (values : List Value) :
    Except QueryError Expression := do
  o.checkArity values.length
  if o.comparison?.isNone then return .literal false
  return .all (values.map fun
    | .null => nullTest column o
    | _ => .literal false)

namespace Target

def column (t : Target) : Column := ⟨t.index, t.name, t.many⟩

/-- The comparator of the field's kind; fields of kind null have none. -/
def comparator? (t : Target) (mode : CaseMode) (format : DateFormat) :
    Except QueryError (Option Comparator) :=
  match t.kind with
  | .null => .ok none
  | .string => .ok (some (.string mode))
  | .number =>
    match t.width? with
    | some width => .ok (some (.number width))
    | none => .error (.unknownType t.type.text)
  | .boolean => .ok (some .boolean)
  | .date => .ok (some (.date format))
  | .enumerated =>
    match t.enum? with
    | some type => .ok (some (.enumerated type))
    | none => .error (.unknownType t.type.text)

end Target

namespace Condition

/-- The expression of the condition over the rows of a schema. Operands never decide which rules
of comparison apply. -/
def bind (c : Condition) (schema : Schema) (defaultFormat : DateFormat) :
    Except QueryError Expression := do
  let target ← Target.find schema c.field
  match ← target.comparator? c.case (c.format.getD defaultFormat) with
  | some comparator => comparator.bind target.column c.operation c.values
  | none => bindNull target.column c.operation c.values

end Condition

end RecordSearch
