import RecordSearch.Proofs.Operands

/-!
Nulls in fields and in operands. A null in a field satisfies only the question for nulls, and a
null among the operands asks that question and nothing else.

* `Condition.evaluate_of_null_field`: what holds of a field that is null;
* `Condition.evaluate_of_null_operand`: what a null among the operands decides;
* `Condition.evaluate_null_safe`: both, for whatever a condition is bound to.
-/

namespace RecordSearch

theorem columnMatches_null {many negated : Bool} {p : Projection} {test : Scalar → Bool} :
    columnMatches .null many p negated test = false := by
  have hproject : p.project? .null = none := by
    cases p <;> rfl
  cases many with
  | true => rfl
  | false => simp only [columnMatches, Bool.false_eq_true, if_false, hproject]

variable {column : Column} {row : Row}

theorem evaluate_nullTest_of_null {o : Operation} (h : Row.value row column.index = .null) :
    (nullTest column o).evaluate row = (o == .equal) := by
  cases o <;> simp [nullTest, Expression.evaluate, h, Value.isNull]

theorem evaluate_nullTest_of_ne_null {o : Operation} (h : Row.value row column.index ≠ .null) :
    (nullTest column o).evaluate row = (o == .notEqual) := by
  have hfalse := Value.isNull_eq_false_iff.2 h
  cases o <;> simp [nullTest, Expression.evaluate, hfalse]

namespace Condition

variable {c : Condition} {schema : Schema} {defaultFormat : DateFormat} {e : Expression}
  {t : Target}

/-- The condition without its null operands. -/
def withoutNulls (c : Condition) : Condition :=
  { c with values := c.values.filter fun v => !v.isNull }

theorem evaluate_only_of_null_field {v : Value} {b : Expression} {p : Comparison × Bool}
    (hc : c.operation.comparison? = some p)
    (ht : Target.find schema c.field = .ok t) (hrow : Row.value row t.index = .null)
    (h : (c.only v).bind schema defaultFormat = .ok b) :
    b.evaluate row = (c.operation == .equal && v.isNull) := by
  rcases bind_only_ok hc ht h with ⟨hv, rfl⟩ | ⟨hv, rfl | ⟨q, s, rfl⟩⟩
  · rw [evaluate_nullTest_of_null hrow, hv, Bool.and_true]
  · rw [hv, Bool.and_false]
    rfl
  · rw [hv, Bool.and_false, Expression.evaluate, Target.column, hrow, columnMatches_null]

/-- Only the question whether it is null holds of a null field. -/
theorem evaluate_of_null_field (h : c.bind schema defaultFormat = .ok e)
    (ht : Target.find schema c.field = .ok t) (hrow : Row.value row t.index = .null) :
    e.evaluate row = true ↔ c.operation = .equal ∧ ∀ v ∈ c.values, v = .null := by
  have hne := Operation.ne_nil_of_accepts (hasArity_of_bind h)
  cases hc : c.operation.comparison? with
  | some p =>
    rw [evaluate_eq_all_of hc h fun v _ b hb => evaluate_only_of_null_field hc ht hrow hb]
    simp only [List.all_eq_true, Bool.and_eq_true, beq_iff_eq, Value.isNull_iff]
    constructor
    · intro hall
      obtain ⟨v, hv⟩ := List.exists_mem_of_ne_nil _ hne
      exact ⟨(hall v hv).1, fun v hv => (hall v hv).2⟩
    · rintro ⟨ho, hall⟩ v hv
      exact ⟨ho, hall v hv⟩
  | none =>
    have ho : c.operation ≠ .equal := by
      intro ho
      rw [ho] at hc
      cases hc
    have hfalse : e.evaluate row = false := by
      rcases bind_range_ok hc ht h with rfl | ⟨-, p, low, high, rfl⟩
      · rfl
      · rw [Expression.evaluate, Target.column, hrow, columnMatches_null]
    simp [hfalse, ho]

theorem holds_only_null {p : Comparison × Bool} (hc : c.operation.comparison? = some p)
    (h : c.bind schema defaultFormat = .ok e) (hnull : .null ∈ c.values)
    (ht : Target.find schema c.field = .ok t) (hrow : Row.value row t.index ≠ .null) :
    (c.only .null).holds schema defaultFormat row = (c.operation == .notEqual) := by
  have hne := Operation.ne_nil_of_accepts (hasArity_of_bind h)
  obtain ⟨b, hb⟩ := (exists_bind_iff hc hne).1 ⟨e, h⟩ .null hnull
  rcases bind_only_ok hc ht hb with ⟨-, rfl⟩ | ⟨hv, -⟩
  · rw [holds, hb]
    exact evaluate_nullTest_of_ne_null hrow
  · cases hv

/-- A null operand decides every operation but that of being different. -/
theorem evaluate_of_null_operand (h : c.bind schema defaultFormat = .ok e)
    (hnull : .null ∈ c.values) (ho : c.operation ≠ .notEqual)
    (ht : Target.find schema c.field = .ok t) (hrow : Row.value row t.index ≠ .null) :
    e.evaluate row = false := by
  cases hc : c.operation.comparison? with
  | some p =>
    rw [evaluate_eq_all hc h, List.all_eq_false]
    refine ⟨.null, hnull, ?_⟩
    rw [holds_only_null hc h hnull ht hrow]
    simpa using ho
  | none =>
    rcases bind_range_ok hc ht h with rfl | ⟨hvalues, -⟩
    · rfl
    · exact absurd hnull hvalues

/-- A field that is there is different from null, so null operands can be left out. -/
theorem evaluate_of_notEqual (h : c.bind schema defaultFormat = .ok e)
    (ho : c.operation = .notEqual) (ht : Target.find schema c.field = .ok t)
    (hrow : Row.value row t.index ≠ .null) :
    e.evaluate row =
      c.withoutNulls.values.all fun v => (c.only v).holds schema defaultFormat row := by
  have hc : c.operation.comparison? = some (.equal, true) := by
    rw [ho]
    rfl
  rw [evaluate_eq_all hc h, withoutNulls, List.all_filter, Bool.eq_iff_iff, List.all_eq_true,
    List.all_eq_true]
  refine forall₂_congr fun v hv => ?_
  cases hnull : v.isNull with
  | false => simp
  | true =>
    obtain rfl := Value.isNull_iff.1 hnull
    simp [holds_only_null hc h hv ht hrow, ho]

theorem exists_bind_withoutNulls (h : c.bind schema defaultFormat = .ok e)
    (ho : c.operation = .notEqual) (hne : c.withoutNulls.values ≠ []) :
    ∃ b, c.withoutNulls.bind schema defaultFormat = .ok b := by
  have hc : c.operation.comparison? = some (.equal, true) := by
    rw [ho]
    rfl
  have hvalues := Operation.ne_nil_of_accepts (hasArity_of_bind h)
  have hall := (exists_bind_iff hc hvalues).1 ⟨e, h⟩
  apply (exists_bind_iff (c := c.withoutNulls) hc hne).2
  intro v hv
  exact hall v (List.mem_filter.1 hv).1

/-- **Nulls are safe.** Whatever a condition is bound to, a null in its field satisfies it only if
it asks for nulls and for nothing else. If the field is not null but an operand is, the condition
fails, unless it asks for a difference: then it holds if it does so without its null operands. -/
theorem evaluate_null_safe (h : c.bind schema defaultFormat = .ok e) :
    ∃ t, Target.find schema c.field = .ok t ∧ ∀ row : Row,
      (Row.value row t.index = .null →
        (e.evaluate row = true ↔ c.operation = .equal ∧ ∀ v ∈ c.values, v = .null)) ∧
      (Row.value row t.index ≠ .null → .null ∈ c.values →
        (c.operation ≠ .notEqual → e.evaluate row = false) ∧
        (c.operation = .notEqual →
          (c.withoutNulls.values = [] → e.evaluate row = true) ∧
          (c.withoutNulls.values ≠ [] →
            ∃ b, c.withoutNulls.bind schema defaultFormat = .ok b ∧
              e.evaluate row = b.evaluate row))) := by
  obtain ⟨t, ht, -⟩ := bind_eq_ok_iff.1 h
  refine ⟨t, ht, fun row => ⟨evaluate_of_null_field h ht, fun hrow hnull => ⟨?_, ?_⟩⟩⟩
  · intro ho
    exact evaluate_of_null_operand h hnull ho ht hrow
  intro ho
  constructor
  · intro hnil
    rw [evaluate_of_notEqual h ho ht hrow, hnil]
    rfl
  · intro hne
    obtain ⟨b, hb⟩ := exists_bind_withoutNulls h ho hne
    have hc : c.withoutNulls.operation.comparison? = some (.equal, true) := congrArg _ ho
    refine ⟨b, hb, ?_⟩
    rw [evaluate_of_notEqual h ho ht hrow, evaluate_eq_all hc hb]
    rfl

/-- A list with a null in it is no null, and it differs from a text that none of its elements is. -/
theorem evaluate_null_safe_list :
    let schema : Schema := ⟨[⟨"Id", .number .i32⟩, ⟨"Tags", .optional (.list .string)⟩]⟩
    let c : Condition := .plain "tags" .notEqual [.null, .text "lean", .null]
    let row : Row := [.number (.int 7), .list [.text "rust", .null]]
    ∃ e, c.bind schema .isoDateTime = .ok e ∧
      ∃ t, Target.find schema c.field = .ok t ∧ Row.value row t.index ≠ .null ∧
        .null ∈ c.values ∧
        ∃ b, c.withoutNulls.bind schema .isoDateTime = .ok b ∧ e.evaluate row = b.evaluate row := by
  intro schema c row
  obtain ⟨e, h⟩ : ∃ e, c.bind schema .isoDateTime = .ok e := by
    simp only [schema, c]
    exact ⟨_, rfl⟩
  have hfind : Target.find schema "tags" = .ok ⟨1, "Tags", .string, .string, true⟩ := by
    simp only [schema]
    rfl
  obtain ⟨t, ht, hsafe⟩ := evaluate_null_safe h
  obtain rfl := Except.ok.inj (hfind.symm.trans ht)
  have hrow : Row.value row 1 ≠ .null := by
    rintro ⟨⟩
  have hnull : .null ∈ c.values := List.mem_cons_self
  refine ⟨e, h, _, ht, hrow, hnull, ?_⟩
  exact (((hsafe row).2 hrow hnull).2 rfl).2 (List.cons_ne_nil _ _)

end Condition

end RecordSearch
