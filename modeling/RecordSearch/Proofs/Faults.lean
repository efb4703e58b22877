import RecordSearch.Proofs.Binding
import RecordSearch.Proofs.Classification
import RecordSearch.Proofs.Meaning

/-!
Why a search has no plan. What can be wrong with a condition is said without the planner, and the
planner reports the first fault from the left, however the conditions are grouped.

* `Comparator.bind_eq_error_iff`: the errors of one comparator;
* `Condition.bind_eq_error_iff`: a condition that has its operands fails to bind by its fault;
* `Search.plan_fails_iff_first_fault`: a search fails by the first fault among its conditions.
-/

namespace RecordSearch

theorem Schema.resolve?_eq_none_iff {schema : Schema} {name : String} :
    schema.resolve? name = none ↔ ∀ f ∈ schema.fields, Ascii.same f.name name = false := by
  have hexact : ∀ f : Field, (f.name == name) = true → Ascii.same f.name name = true := by
    intro f h
    rw [beq_iff_eq.1 h]
    exact Ascii.same_refl name
  have hindex : schema.index? name = none ↔
      ∀ f ∈ schema.fields, Ascii.same f.name name = false := by
    simp only [index?, Option.or_eq_none_iff, List.findIdx?_eq_none_iff]
    refine ⟨fun h => h.2, fun h => ⟨fun f hf => ?_, h⟩⟩
    rw [Bool.eq_false_iff]
    intro heq
    exact Bool.false_ne_true ((h f hf).symm.trans (hexact f heq))
  rw [← hindex, resolve?]
  cases hi : schema.index? name with
  | none => simp
  | some i =>
    have hlt : i < schema.fields.length := by
      rw [index?, Option.or_eq_some_iff] at hi
      rcases hi with hi | ⟨-, hi⟩ <;> exact (List.findIdx?_eq_some_iff_getElem.1 hi).1
    simp [hlt]

namespace Comparator

variable {k : Comparator} {column : Column} {o : Operation} {v : Value} {err : QueryError}

/-- The field of this name takes no such operand. Null is an operand of every field. -/
def Refuses (k : Comparator) (field : String) (o : Operation) (v : Value) (err : QueryError) :
    Prop :=
  v.isNull = false ∧ k.operand? o v = none ∧ .invalidOperand field o v = err

theorem supports_iff : k.supports o = true ↔
    (k.kind = .boolean ∨ k.kind = .enumerated → o = .equal ∨ o = .notEqual) := by
  cases k <;> simp [supports, kind]

theorem convert_eq_error_iff :
    k.convert column o v = .error err ↔
      k.operand? o v = none ∧ .invalidOperand column.name o v = err := by
  rw [convert]
  split <;> simp [*]

theorem leaf_eq_error_iff {comparison : Comparison} {negated : Bool} :
    k.leaf column o comparison negated v = .error err ↔ k.Refuses column.name o v err := by
  cases v with
  | null => simp [leaf, Refuses, Value.isNull]
  | _ => simp [leaf, Refuses, Value.isNull, bind_error_iff, convert_eq_error_iff, pure, Except.pure]

theorem bound_eq_error_iff :
    k.bound column o v = .error err ↔ k.Refuses column.name o v err := by
  cases v with
  | null => simp [bound, Refuses, Value.isNull]
  | _ => simp [bound, Refuses, Value.isNull, map_error_iff, convert_eq_error_iff]

/-- A null in place of one bound hides nothing that is wrong with the other. -/
theorem range_eq_error_iff {low high : Value} :
    k.range column o low high = .error err ↔
      IsFirstFault (k.Refuses column.name o) [low, high] err := by
  rw [isFirstFault_cons_iff, isFirstFault_cons_iff, range, bind_error_iff, bound_eq_error_iff]
  refine or_congr_right ?_
  constructor
  · rintro ⟨a, ha, h⟩
    rcases bind_error_iff.1 h with h | ⟨b, -, h⟩
    · refine ⟨fun d hd => ?_, .inl (bound_eq_error_iff.1 h)⟩
      exact exists_ok_iff.1 ⟨a, ha⟩ d (bound_eq_error_iff.2 hd)
    · split at h <;> cases h
  · rintro ⟨hlow, h⟩
    obtain ⟨a, ha⟩ : ∃ a, k.bound column o low = .ok a :=
      exists_ok_iff.2 fun d hd => hlow d (bound_eq_error_iff.1 hd)
    have hhigh := h.resolve_right fun h => not_isFirstFault_nil h.2
    exact ⟨a, ha, bind_error_iff.2 (.inl (bound_eq_error_iff.2 hhigh))⟩

theorem bind_eq_error_iff {values : List Value} (ha : o.arity.accepts values.length = true) :
    k.bind column o values = .error err ↔
      k.supports o = false ∧ .unsupportedOperation k.kind o = err ∨
        k.supports o = true ∧ IsFirstFault (k.Refuses column.name o) values err := by
  have harity : o.checkArity values.length = .ok () := if_pos ha
  unfold bind
  rw [harity]
  cases hs : k.supports o with
  | false => simp [throw, throwThe, MonadExceptOf.throw, Bind.bind, Except.bind]
  | true =>
    simp only [Bool.not_true, Bool.false_eq_true, if_false, reduceCtorEq, false_and, false_or,
      true_and]
    cases hc : o.comparison? with
    | some p =>
      obtain ⟨comparison, negated⟩ := p
      change (values.mapM (k.leaf column o comparison negated) >>= _) = _ ↔ _
      rw [bind_error_iff, mapM_error_iff]
      simp only [leaf_eq_error_iff]
      refine or_iff_left ?_
      rintro ⟨es, -, h⟩
      cases h
    | none =>
      obtain ⟨low, high, rfl⟩ := Operation.eq_pair_of_accepts hc ha
      exact range_eq_error_iff

end Comparator

theorem bindNull_ne_error {column : Column} {o : Operation} {values : List Value}
    (ha : o.arity.accepts values.length = true) (err : QueryError) :
    bindNull column o values ≠ .error err := by
  have harity : o.checkArity values.length = .ok () := if_pos ha
  obtain ⟨e, he⟩ : ∃ e, bindNull column o values = .ok e :=
    ⟨_, bindNull_eq_ok_iff.2 ⟨ha, rfl⟩⟩
  rw [he]
  simp

namespace Condition

/-- What is wrong with a condition on a field. Each fault stands for itself: the type has a kind
when the operation is looked at, and the operation is one of that kind when the operands are. -/
inductive Misfit (field : Field) (format : DateFormat) (c : Condition) : QueryError → Prop
  /-- The type, without marks for null and one list, is unknown or still a list. -/
  | unknownType (htype : (∃ text, Target.scalarType field.type = .other text) ∨
        ∃ element, Target.scalarType field.type = .list element) :
      Misfit field format c (.unknownType (Target.scalarType field.type).text)
  | unsupportedOperation {kind : Kind}
      (hkind : (Target.scalarType field.type).scalarKind? = some kind)
      (hpoor : kind = .boolean ∨ kind = .enumerated)
      (ho : c.operation ≠ .equal ∧ c.operation ≠ .notEqual) :
      Misfit field format c (.unsupportedOperation kind c.operation)
  /-- Of the operands that are not null, it is the first that the rules of the field refuse. -/
  | invalidOperand {k : Comparator} {err : QueryError}
      (hrules : (Target.scalarType field.type).comparator? c.case format = some k)
      (ho : k.kind = .boolean ∨ k.kind = .enumerated →
        c.operation = .equal ∨ c.operation = .notEqual)
      (hfirst : IsFirstFault (k.Refuses field.name c.operation) c.values err) :
      Misfit field format c err

/-- What is wrong with a condition on the records of a schema. -/
inductive Fault (schema : Schema) (defaultFormat : DateFormat) (c : Condition) : QueryError → Prop
  | unknownField (h : ∀ f ∈ schema.fields, Ascii.same f.name c.field = false) :
      Fault schema defaultFormat c (.unknownField c.field)
  | misfit {index : Nat} {field : Field} {err : QueryError}
      (hfield : schema.resolve? c.field = some (index, field))
      (h : c.Misfit field (c.format.getD defaultFormat) err) : Fault schema defaultFormat c err

variable {c : Condition} {schema : Schema} {format defaultFormat : DateFormat} {field : Field}
  {err : QueryError}

theorem fault_of_resolve?_none (h : schema.resolve? c.field = none) :
    c.Fault schema defaultFormat err ↔ .unknownField c.field = err := by
  constructor
  · intro hfault
    cases hfault with
    | unknownField => rfl
    | misfit hfield => cases h.symm.trans hfield
  · rintro rfl
    exact .unknownField (Schema.resolve?_eq_none_iff.1 h)

theorem fault_of_resolve? {index : Nat} (h : schema.resolve? c.field = some (index, field)) :
    c.Fault schema defaultFormat err ↔ c.Misfit field (c.format.getD defaultFormat) err := by
  constructor
  · intro hfault
    cases hfault with
    | unknownField hall => cases (Schema.resolve?_eq_none_iff.2 hall).symm.trans h
    | misfit hfield hmisfit =>
      obtain ⟨-, rfl⟩ := Prod.mk.inj (Option.some.inj (hfield.symm.trans h))
      exact hmisfit
  · exact .misfit h

theorem misfit_of_kind_none (h : (Target.scalarType field.type).scalarKind? = none) :
    c.Misfit field format err ↔ .unknownType (Target.scalarType field.type).text = err := by
  constructor
  · intro hmisfit
    cases hmisfit with
    | unknownType => rfl
    | unsupportedOperation hkind => cases h.symm.trans hkind
    | invalidOperand hrules =>
      cases h.symm.trans (FieldType.scalarKind?_of_comparator? hrules)
  · rintro rfl
    exact .unknownType (FieldType.scalarKind?_eq_none_iff.1 h)

/-- A field of kind null takes whatever it is given. -/
theorem not_misfit_of_kind_null (h : (Target.scalarType field.type).scalarKind? = some .null) :
    ¬c.Misfit field format err := by
  intro hmisfit
  cases hmisfit with
  | unknownType htype => cases (FieldType.scalarKind?_eq_none_iff.2 htype).symm.trans h
  | unsupportedOperation hkind hpoor =>
    obtain rfl := Option.some.inj (hkind.symm.trans h)
    simp at hpoor
  | @invalidOperand k _ hrules =>
    have hnull := Option.some.inj ((FieldType.scalarKind?_of_comparator? hrules).symm.trans h)
    cases k <;> cases hnull

theorem misfit_of_comparator? {k : Comparator}
    (h : (Target.scalarType field.type).comparator? c.case format = some k) :
    c.Misfit field format err ↔
      k.supports c.operation = false ∧ .unsupportedOperation k.kind c.operation = err ∨
        k.supports c.operation = true ∧
          IsFirstFault (k.Refuses field.name c.operation) c.values err := by
  have hkind := FieldType.scalarKind?_of_comparator? h
  constructor
  · intro hmisfit
    cases hmisfit with
    | unknownType htype => cases (FieldType.scalarKind?_eq_none_iff.2 htype).symm.trans hkind
    | unsupportedOperation hkind' hpoor ho =>
      obtain rfl := Option.some.inj (hkind'.symm.trans hkind)
      refine .inl ⟨?_, rfl⟩
      rw [Bool.eq_false_iff, ne_eq, Comparator.supports_iff]
      exact fun h => (h hpoor).elim ho.1 ho.2
    | invalidOperand hrules ho hfirst =>
      obtain rfl := Option.some.inj (hrules.symm.trans h)
      exact .inr ⟨Comparator.supports_iff.2 ho, hfirst⟩
  · rintro (⟨hs, rfl⟩ | ⟨hs, hfirst⟩)
    · rw [Bool.eq_false_iff, ne_eq, Comparator.supports_iff, Classical.not_imp, not_or] at hs
      exact .unsupportedOperation hkind hs.1 hs.2
    · exact .invalidOperand h (Comparator.supports_iff.1 hs) hfirst

/-- A condition with its operands fails to bind by its fault, and by nothing else. -/
theorem bind_eq_error_iff (ha : c.HasArity) :
    c.bind schema defaultFormat = .error err ↔ c.Fault schema defaultFormat err := by
  cases hr : schema.resolve? c.field with
  | none =>
    have hfind : Target.find schema c.field = .error (.unknownField c.field) := by
      simp only [Target.find_eq, hr]
    rw [bind_of_find_error hfind, fault_of_resolve?_none hr, Except.error.injEq]
  | some p =>
    obtain ⟨index, field⟩ := p
    rw [fault_of_resolve? hr]
    cases hk : (Target.scalarType field.type).scalarKind? with
    | none =>
      have hfind : Target.find schema c.field =
          .error (.unknownType (Target.scalarType field.type).text) := by
        simp only [Target.find_eq, hr, hk]
      rw [bind_of_find_error hfind, misfit_of_kind_none hk, Except.error.injEq]
    | some kind =>
      have hfind := Target.find_eq_ok_iff.2 ⟨index, field, kind, hr, hk, rfl⟩
      rw [bind_of_find hfind]
      by_cases hnull : kind = .null
      · subst hnull
        rw [FieldType.comparator?_of_kind_null hk]
        exact iff_of_false (bindNull_ne_error ha err) (not_misfit_of_kind_null hk)
      · obtain ⟨k, hrules⟩ := FieldType.exists_comparator? hk hnull c.case
          (c.format.getD defaultFormat)
        simp only [hrules, misfit_of_comparator? hrules]
        exact Comparator.bind_eq_error_iff ha

end Condition

namespace Node

variable {schema : Schema} {format : DateFormat}

mutual

/-- The order of the conditions is all that counts of the tree. -/
theorem plan_eq_error_iff : ∀ (n : Node) {err : QueryError},
    plan schema format n = .error err ↔
      IsFirstFault (fun c e => c.bind schema format = .error e) (leaves n) err
  | condition c, err => by
    rw [plan, map_error_iff, leaves, isFirstFault_cons_iff]
    simp only [not_isFirstFault_nil, and_false, or_false]
  | group connective children, err => by
    rw [plan, map_error_iff, leaves, planChildren_eq_error_iff children]

theorem planChildren_eq_error_iff : ∀ (ns : List Node) {err : QueryError},
    planChildren schema format ns = .error err ↔
      IsFirstFault (fun c e => c.bind schema format = .error e) (leavesOf ns) err
  | [], err => by simp [planChildren, leavesOf, not_isFirstFault_nil]
  | child :: rest, err => by
    have hchild : (∃ o, plan schema format child = .ok o) ↔
        ∀ c ∈ leaves child, ∀ e, c.bind schema format ≠ .error e := by
      rw [exists_ok_iff, ← not_exists]
      simp only [plan_eq_error_iff child, exists_isFirstFault_iff, not_exists, not_and, ne_eq]
    have hrest : ∀ first : Option Expression,
        (planChildren schema format rest >>= fun others => pure (first.toList ++ others)) =
          .error err ↔ planChildren schema format rest = .error err := by
      intro first
      simp [bind_error_iff, pure, Except.pure]
    rw [planChildren, bind_error_iff, leavesOf, isFirstFault_append_iff, plan_eq_error_iff child,
      ← planChildren_eq_error_iff rest]
    simp only [hrest, exists_and_right, hchild, ne_eq]

end

end Node

namespace Search

/-- The error of a search is that of the first condition that is not bound. -/
theorem plan_eq_error_iff {s : Search} {schema : Schema} {err : QueryError} :
    s.plan schema = .error err ↔
      IsFirstFault (fun c e => c.bind schema s.format = .error e) s.leaves err := by
  rw [plan, map_error_iff, constraint, Node.plan_eq_error_iff, leaves]

/-- **A search has no plan because of the first faulty condition.** If the operations of its
conditions take the operands that they have, then planning fails exactly if one of the conditions
is at fault, and the error is the fault of the first of them from left to right, whatever the
connectives and groups. A condition on a field of kind null is never at fault. -/
theorem plan_fails_iff_first_fault {s : Search} {schema : Schema}
    (ha : ∀ c ∈ s.leaves, c.HasArity) :
    ((∃ err, s.plan schema = .error err) ↔
        ∃ c ∈ s.leaves, ∃ err, c.Fault schema s.format err) ∧
      (∀ err, s.plan schema = .error err ↔
        IsFirstFault (fun c e => c.Fault schema s.format e) s.leaves err) ∧
      ∀ (c : Condition) target, Target.find schema c.field = .ok target → target.kind = .null →
        ∀ err, ¬c.Fault schema s.format err := by
  have hplan : ∀ err, s.plan schema = .error err ↔
      IsFirstFault (fun c e => c.Fault schema s.format e) s.leaves err := by
    intro err
    rw [plan, map_error_iff, constraint, Node.plan_eq_error_iff]
    exact isFirstFault_congr fun c hc e => Condition.bind_eq_error_iff (ha c hc)
  refine ⟨?_, hplan, ?_⟩
  · simp only [hplan, exists_isFirstFault_iff]
  · intro c target hfind hnull err
    obtain ⟨index, field, kind, hfield, hkind, rfl⟩ := Target.find_eq_ok_iff.1 hfind
    obtain rfl : kind = .null := hnull
    rw [Condition.fault_of_resolve? hfield]
    exact Condition.not_misfit_of_kind_null hkind

/-- Behind an operand of the wrong kind, next to a null, stands a field that is not there. -/
theorem plan_fails_iff_first_fault_nested :
    let schema : Schema := ⟨[⟨"Active", .optional .boolean⟩, ⟨"Payment", .list (.number .i32)⟩]⟩
    let paid := (any.addCondition (.greaterThan "Payment" .null)).addCondition
      (.between "payment" .null (.boolean true))
    let s := ((any.addCondition (.isNull "Active")).addGroup (paid.addGroup all)).addCondition
      (.equal "Salary" .null)
    (∀ c ∈ s.leaves, c.HasArity) ∧
      IsFirstFault (fun c e => c.Fault schema s.format e) s.leaves
        (.invalidOperand "Payment" .between (.boolean true)) :=
  ⟨by decide, ((plan_fails_iff_first_fault (by decide)).2.1 _).1 rfl⟩

end Search

end RecordSearch
