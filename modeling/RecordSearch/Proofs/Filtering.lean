import RecordSearch.Proofs.Result
import RecordSearch.Selection.Filter

/-!
Filtering is what walking the plan for each record says.

* `predicate_eq_evaluate`: the predicate made of an expression agrees with walking it;
* `filter_of_plan`: a filter keeps the records that the plan accepts, in their order;
* `compile_of_plan_error`: an error of the plan is the error of everything that is made from it.
-/

namespace RecordSearch

namespace Expression

mutual

theorem predicate_eq_evaluate (row : Row) : ∀ e : Expression, predicate e row = evaluate row e
  | literal _ | isNull _ | isNotNull _ | compare .. | between .. => rfl
  | conjunction children => by
    rw [predicate, evaluate, evaluateAll_eq_all]
    exact (predicates_agree row children).1
  | disjunction children => by
    rw [predicate, evaluate, evaluateAny_eq_any]
    exact (predicates_agree row children).2

theorem predicates_agree (row : Row) : ∀ es : List Expression,
    ((predicates es).all fun test => test row) = es.all (evaluate row) ∧
      ((predicates es).any fun test => test row) = es.any (evaluate row)
  | [] => ⟨rfl, rfl⟩
  | e :: rest => by
    obtain ⟨hall, hany⟩ := predicates_agree row rest
    simp only [predicates, List.all_cons, List.any_cons, predicate_eq_evaluate row e, hall, hany,
      and_self]

end

end Expression

namespace Search

variable {s : Search} {schema : Schema} {α : Type}

theorem compile_of_plan {e : Expression} (h : s.plan schema = .ok e) :
    s.compile schema = .ok e.predicate := by
  rw [compile, h, Except.map]

theorem compile_of_plan_error {err : QueryError} (h : s.plan schema = .error err) :
    s.compile schema = .error err := by
  rw [compile, h, Except.map]

theorem select_of_compile {accepts : Row → Bool} (h : s.compile schema = .ok accepts)
    (row : α → Row) (page : Option Page) (records : List α) :
    s.select schema row page records =
      .ok (Selection.ofPage (fun r => accepts (row r)) page records) := by
  rw [select, h]
  rfl

theorem select_of_compile_error {err : QueryError} (h : s.compile schema = .error err)
    (row : α → Row) (page : Option Page) (records : List α) :
    s.select schema row page records = .error err := by
  rw [select, h]
  rfl

theorem filter_of_plan {e : Expression} (h : s.plan schema = .ok e) (row : α → Row)
    (records : List α) :
    s.filter schema row records = .ok (records.filter fun r => e.evaluate (row r)) := by
  rw [filter, select_of_compile (compile_of_plan h)]
  simp only [Except.map, Selection.ofPage, Selection.all, Expression.predicate_eq_evaluate]

/-- **Filtering and walking agree.** A predicate accepts the rows that its expression accepts. If
a search has a plan, its filter is the sublist of the records that the plan accepts; if planning
fails, so do compiling and filtering, with the same error and whatever the records are. -/
theorem filter_agrees_with_plan :
    (∀ (e : Expression) (row : Row), e.predicate row = e.evaluate row) ∧
      ∀ (s : Search) (schema : Schema),
        (∀ e, s.plan schema = .ok e → ∀ (α : Type) (row : α → Row) (records : List α),
          s.filter schema row records = .ok (records.filter fun r => e.evaluate (row r))) ∧
        ∀ err, s.plan schema = .error err →
          s.compile schema = .error err ∧ ∀ (α : Type) (row : α → Row) (records : List α),
            s.filter schema row records = .error err ∧
              ∀ page, s.filterPage schema row page records = .error err := by
  refine ⟨fun e row => e.predicate_eq_evaluate row, fun s schema => ⟨?_, ?_⟩⟩
  · intro e h α row records
    exact filter_of_plan h row records
  · intro err h
    have hc := compile_of_plan_error h
    refine ⟨hc, fun α row records => ⟨?_, fun page => ?_⟩⟩
    · rw [filter, select_of_compile_error hc, Except.map]
    · rw [filterPage, select_of_compile_error hc, Except.map]

/-- A list of records in which the accepted ones repeat, and no record for a field that is not
there. -/
theorem filter_agrees_with_plan_repeated :
    let schema : Schema := ⟨[⟨"FullName", .string⟩]⟩
    let s := all.addCondition (.notContains "fullname" (.text "Den"))
    let rows : List Row := [[.text "Ken"], [.text "Dennis"], [.null], [.text "Ken"]]
    (∃ e, s.plan schema = .ok e ∧
      s.filter schema id rows = .ok (rows.filter fun r => e.evaluate r)) ∧
      (all.addCondition (.isNull "Salary")).plan schema = .error (.unknownField "Salary") ∧
      (all.addCondition (.isNull "Salary")).filter schema id ([] : List Row) =
        .error (.unknownField "Salary") :=
  ⟨⟨_, rfl, (filter_agrees_with_plan.2 _ _).1 _ rfl Row id _⟩, rfl,
    (((filter_agrees_with_plan.2 _ _).2 _ rfl).2 Row id []).1⟩

end Search

end RecordSearch
