import RecordSearch.Proofs.Filtering

/-!
The meaning of an expression for an engine in which a null makes a comparison unknown, in place of
a row that just fails it. No guard against null stands in the clause, and none is needed.

* `Truth.isTrue_and`, `Truth.isTrue_or`: whether a group is true depends on nothing but whether its
  parts are;
* `columnMatches_eq_isTrue`: below the groups an unknown test fails, negated or not;
* `Expression.evaluate_eq_isTrue_truth`: a row is accepted exactly where the clause is true.
-/

namespace RecordSearch

/-- The truth values of a clause over fields that may be null. -/
inductive Truth where
  | fails
  | unknown
  | holds
deriving DecidableEq

namespace Truth

def ofBool (b : Bool) : Truth := if b then holds else fails

def isTrue : Truth → Bool
  | holds => true
  | _ => false

def not : Truth → Truth
  | fails => holds
  | unknown => unknown
  | holds => fails

/-- One part that fails decides a conjunction, also against an unknown one. -/
def and : Truth → Truth → Truth
  | fails, _ => fails
  | _, fails => fails
  | holds, holds => holds
  | _, _ => unknown

/-- One part that holds decides a disjunction, also against an unknown one. -/
def or : Truth → Truth → Truth
  | holds, _ => holds
  | _, holds => holds
  | fails, fails => fails
  | _, _ => unknown

def negatedIf (negated : Bool) (t : Truth) : Truth := if negated then t.not else t

theorem isTrue_iff {t : Truth} : t.isTrue = true ↔ t = holds := by
  cases t <;> simp [isTrue]

theorem isTrue_ofBool (b : Bool) : (ofBool b).isTrue = b := by
  cases b <;> rfl

theorem isTrue_and (s t : Truth) : (s.and t).isTrue = (s.isTrue && t.isTrue) := by
  cases s <;> cases t <;> rfl

theorem isTrue_or (s t : Truth) : (s.or t).isTrue = (s.isTrue || t.isTrue) := by
  cases s <;> cases t <;> rfl

theorem isTrue_negatedIf_ofBool (negated b : Bool) :
    ((ofBool b).negatedIf negated).isTrue = (b != negated) := by
  cases negated <;> cases b <;> rfl

end Truth

/-- The positive test of a column value. A value that does not project is not known to pass or to
fail, and neither is what stands for a list without being one. -/
def columnTruth (value : Value) (many : Bool) (p : Projection) (test : Scalar → Bool) : Truth :=
  if many then
    match value with
    | .list items => .ofBool ((items.filterMap p.project?).any test)
    | _ => .unknown
  else
    match p.project? value with
    | some scalar => .ofBool (test scalar)
    | none => .unknown

/-- The negation of an unknown test is unknown, so it fails as the test itself does. -/
theorem columnMatches_eq_isTrue (value : Value) (many : Bool) (p : Projection) (negated : Bool)
    (test : Scalar → Bool) :
    columnMatches value many p negated test =
      ((columnTruth value many p test).negatedIf negated).isTrue := by
  have hunknown : (Truth.unknown.negatedIf negated).isTrue = false := by
    cases negated <;> rfl
  cases many with
  | true =>
    cases value with
    | list items => exact (Truth.isTrue_negatedIf_ofBool negated _).symm
    | null | boolean | number | text | instant | member => exact hunknown.symm
  | false =>
    simp only [columnMatches, columnTruth, Bool.false_eq_true, if_false]
    cases p.project? value with
    | some scalar => exact (Truth.isTrue_negatedIf_ofBool negated _).symm
    | none => exact hunknown.symm

namespace Expression

mutual

/-- The truth of the clause. A negation stands in front of a single test and nowhere else. -/
def truth (row : Row) : Expression → Truth
  | literal b => .ofBool b
  | isNull c => .ofBool (Row.value row c.index).isNull
  | isNotNull c => .ofBool !(Row.value row c.index).isNull
  | compare c p comparison operand negated =>
    (columnTruth (Row.value row c.index) c.many p fun s =>
      s.satisfies comparison operand).negatedIf negated
  | between c p low high negated =>
    (columnTruth (Row.value row c.index) c.many p fun s => s.isBetween low high).negatedIf negated
  | conjunction children => truthOfAll row children
  | disjunction children => truthOfAny row children

def truthOfAll (row : Row) : List Expression → Truth
  | [] => .holds
  | child :: rest => (truth row child).and (truthOfAll row rest)

def truthOfAny (row : Row) : List Expression → Truth
  | [] => .fails
  | child :: rest => (truth row child).or (truthOfAny row rest)

end

variable (row : Row)

mutual

theorem evaluate_eq_isTrue_truth : ∀ e : Expression, e.evaluate row = (e.truth row).isTrue
  | literal b => (Truth.isTrue_ofBool b).symm
  | isNull _ | isNotNull _ => (Truth.isTrue_ofBool _).symm
  | compare .. | between .. => columnMatches_eq_isTrue ..
  | conjunction children => evaluateAll_eq_isTrue_truth children
  | disjunction children => evaluateAny_eq_isTrue_truth children

theorem evaluateAll_eq_isTrue_truth :
    ∀ es : List Expression, evaluateAll row es = (truthOfAll row es).isTrue
  | [] => rfl
  | e :: rest => by
    rw [evaluateAll, truthOfAll, Truth.isTrue_and, evaluate_eq_isTrue_truth e,
      evaluateAll_eq_isTrue_truth rest]

theorem evaluateAny_eq_isTrue_truth :
    ∀ es : List Expression, evaluateAny row es = (truthOfAny row es).isTrue
  | [] => rfl
  | e :: rest => by
    rw [evaluateAny, truthOfAny, Truth.isTrue_or, evaluate_eq_isTrue_truth e,
      evaluateAny_eq_isTrue_truth rest]

end

/-- **Rows are kept where the clause is true.** With unknown comparisons an expression is true of
the rows that it accepts and of no others, so a filter keeps the records that an engine would which
is given its clause. -/
theorem evaluate_iff_truth :
    (∀ (e : Expression) (row : Row), e.evaluate row = true ↔ e.truth row = .holds) ∧
      ∀ (s : Search) (schema : Schema) (α : Type) (row : α → Row) (records : List α),
        s.filter schema row records =
          (s.plan schema).map fun e => records.filter fun r => e.truth (row r) = .holds := by
  have hrow : ∀ (e : Expression) (row : Row), e.evaluate row = true ↔ e.truth row = .holds := by
    intro e row
    rw [evaluate_eq_isTrue_truth, Truth.isTrue_iff]
  refine ⟨hrow, ?_⟩
  intro s schema α row records
  cases h : s.plan schema with
  | error err =>
    rw [Search.filter, Search.select_of_compile_error (Search.compile_of_plan_error h)]
    rfl
  | ok e =>
    have hkept : ∀ r ∈ records, e.evaluate (row r) = decide (e.truth (row r) = .holds) := by
      intro r _
      rw [Bool.eq_iff_iff, hrow, decide_eq_true_eq]
    rw [Search.filter_of_plan h, List.filter_congr hkept]
    rfl

/-- Both a comparison with a null and its negation are unknown, and so is their disjunction. -/
example :
    let column : Column := ⟨0, "FullName", false⟩
    let test (negated : Bool) : Expression :=
      .compare column (.text .default) .contains (.text "Den") negated
    (disjunction [test false, test true]).truth [.null] = .unknown :=
  rfl

end Expression

end RecordSearch
