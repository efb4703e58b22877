import RecordSearch.Clause.Scalar

/-!
Filter expressions over the columns of a row: constants, null tests, comparisons and ranges, and
conjunctions and disjunctions of these.
-/

namespace RecordSearch

/-- The position of a field with its declared name; `many` marks a list whose elements are
compared one by one. -/
structure Column where
  index : Nat
  name : String
  many : Bool
deriving DecidableEq

def Column.label (c : Column) : String := if c.many then c.name ++ "[*]" else c.name

inductive Expression where
  | literal (value : Bool)
  | isNull (column : Column)
  | isNotNull (column : Column)
  | compare (column : Column) (projection : Projection) (comparison : Comparison)
      (operand : Scalar) (negated : Bool)
  | between (column : Column) (projection : Projection) (low high : Scalar) (negated : Bool)
  | conjunction (children : List Expression)
  | disjunction (children : List Expression)

namespace Expression

/-- A single child stands for itself, and none is true. -/
def all : List Expression → Expression
  | [] => literal true
  | [child] => child
  | children => conjunction children

/-- A single child stands for itself, and none is false. -/
def any : List Expression → Expression
  | [] => literal false
  | [child] => child
  | children => disjunction children

def addColumn (seen : List Column) (c : Column) : List Column :=
  if seen.any (·.index == c.index) then seen else seen ++ [c]

mutual

/-- The columns seen so far and those of the expression that are new. -/
def collect (seen : List Column) : Expression → List Column
  | literal _ => seen
  | isNull c => addColumn seen c
  | isNotNull c => addColumn seen c
  | compare c _ _ _ _ => addColumn seen c
  | between c _ _ _ _ => addColumn seen c
  | conjunction children => collectAll seen children
  | disjunction children => collectAll seen children

def collectAll (seen : List Column) : List Expression → List Column
  | [] => seen
  | child :: rest => collectAll (collect seen child) rest

end

/-- The columns that the expression reads, one for each position, by first appearance. -/
def columns (e : Expression) : List Column := collect [] e

mutual

/-- The expression reads no column. -/
def isConstant : Expression → Bool
  | literal _ => true
  | conjunction children => areConstant children
  | disjunction children => areConstant children
  | _ => false

def areConstant : List Expression → Bool
  | [] => true
  | child :: rest => isConstant child && areConstant rest

end

mutual

def size : Expression → Nat
  | conjunction children => 1 + sizes children
  | disjunction children => 1 + sizes children
  | _ => 1

def sizes : List Expression → Nat
  | [] => 0
  | child :: rest => size child + sizes rest

end

def displayComparison (field : String) (c : Comparison) (operand : String) (negated : Bool) :
    String :=
  if c.isTextual then
    (if negated then "NOT " else "") ++ c.symbol ++ "(" ++ field ++ ", " ++ operand ++ ")"
  else if !negated then field ++ " " ++ c.symbol ++ " " ++ operand
  else if c = .equal then field ++ " != " ++ operand
  else "NOT " ++ c.symbol ++ "(" ++ field ++ ", " ++ operand ++ ")"

mutual

/-- The clause in the notation of a query. -/
def display : Expression → String
  | literal b => if b then "TRUE" else "FALSE"
  | isNull c => c.label ++ " IS NULL"
  | isNotNull c => c.label ++ " IS NOT NULL"
  | compare c p comparison operand negated =>
    displayComparison (p.display c.label) comparison operand.display negated
  | between c p low high negated =>
    p.display c.label ++ (if negated then " NOT BETWEEN " else " BETWEEN ") ++ low.display ++
      " AND " ++ high.display
  | conjunction children => "(" ++ String.intercalate " AND " (displays children) ++ ")"
  | disjunction children => "(" ++ String.intercalate " OR " (displays children) ++ ")"

def displays : List Expression → List String
  | [] => []
  | child :: rest => display child :: displays rest

end

end Expression

end RecordSearch
