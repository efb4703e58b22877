import RecordSearch.Clause.Expression

/-!
Whether a row satisfies an expression, in two ways: by walking the expression for each row, and
by turning it into a predicate once.
-/

namespace RecordSearch

/-- Tests a column value. A value that does not project fails, negated or not. Of a list, some
element has to pass, or none if the test is negated, and elements that do not project never
pass. -/
def columnMatches (value : Value) (many : Bool) (p : Projection) (negated : Bool)
    (test : Scalar → Bool) : Bool :=
  if many then
    match value with
    | .list items => ((items.filterMap p.project?).any test) != negated
    | _ => false
  else
    match p.project? value with
    | some scalar => test scalar != negated
    | none => false

namespace Expression

mutual

def evaluate (row : Row) : Expression → Bool
  | literal b => b
  | isNull c => (Row.value row c.index).isNull
  | isNotNull c => !(Row.value row c.index).isNull
  | compare c p comparison operand negated =>
    columnMatches (Row.value row c.index) c.many p negated fun s => s.satisfies comparison operand
  | between c p low high negated =>
    columnMatches (Row.value row c.index) c.many p negated fun s => s.isBetween low high
  | conjunction children => evaluateAll row children
  | disjunction children => evaluateAny row children

def evaluateAll (row : Row) : List Expression → Bool
  | [] => true
  | child :: rest => evaluate row child && evaluateAll row rest

def evaluateAny (row : Row) : List Expression → Bool
  | [] => false
  | child :: rest => evaluate row child || evaluateAny row rest

end

mutual

/-- The predicate of a group is made from the predicates of its children. -/
def predicate : Expression → Row → Bool
  | literal b => fun _ => b
  | isNull c => fun row => (Row.value row c.index).isNull
  | isNotNull c => fun row => !(Row.value row c.index).isNull
  | compare c p comparison operand negated => fun row =>
    columnMatches (Row.value row c.index) c.many p negated fun s => s.satisfies comparison operand
  | between c p low high negated => fun row =>
    columnMatches (Row.value row c.index) c.many p negated fun s => s.isBetween low high
  | conjunction children =>
    let tests := predicates children
    fun row => tests.all fun test => test row
  | disjunction children =>
    let tests := predicates children
    fun row => tests.any fun test => test row

def predicates : List Expression → List (Row → Bool)
  | [] => []
  | child :: rest => predicate child :: predicates rest

end

theorem evaluateAll_eq_all (row : Row) (es : List Expression) :
    evaluateAll row es = es.all (evaluate row) := by
  induction es with
  | nil => rfl
  | cons e rest ih => rw [evaluateAll, List.all_cons, ih]

theorem evaluateAny_eq_any (row : Row) (es : List Expression) :
    evaluateAny row es = es.any (evaluate row) := by
  induction es with
  | nil => rfl
  | cons e rest ih => rw [evaluateAny, List.any_cons, ih]

theorem evaluate_all (row : Row) (es : List Expression) :
    evaluate row (all es) = es.all (evaluate row) := by
  match es with
  | [] => rfl
  | [e] => simp [all]
  | e :: f :: rest => exact evaluateAll_eq_all row (e :: f :: rest)

theorem evaluate_any (row : Row) (es : List Expression) :
    evaluate row (any es) = es.any (evaluate row) := by
  match es with
  | [] => rfl
  | [e] => simp [any]
  | e :: f :: rest => exact evaluateAny_eq_any row (e :: f :: rest)

end Expression

end RecordSearch
