import RecordSearch.Plan.Search
import RecordSearch.Proofs.Result

/-!
What a condition is bound to, read back from the result: the checks that it has passed, and the
scalars of its operands.

* `Comparator.bind_eq_ok_iff` and `bindNull_eq_ok_iff`: the expressions of one comparator;
* `Condition.bind_eq_ok_iff`: the comparator is that of the field.
-/

namespace RecordSearch

theorem Operation.checkArity_eq_ok_iff {o : Operation} {count : Nat} {u : Unit} :
    o.checkArity count = .ok u ↔ o.arity.accepts count = true := by
  rw [checkArity]
  split <;> simp [*]

/-- What has no positive comparison is a range, with two operands. -/
theorem Operation.eq_two_of_accepts {o : Operation} {count : Nat} (hc : o.comparison? = none)
    (ha : o.arity.accepts count = true) : count = 2 := by
  cases o with
  | between | notBetween => exact beq_iff_eq.1 ha
  | _ => cases hc

theorem Operation.eq_pair_of_accepts {o : Operation} {values : List Value}
    (hc : o.comparison? = none) (ha : o.arity.accepts values.length = true) :
    ∃ low high, values = [low, high] := by
  match values, eq_two_of_accepts hc ha with
  | [low, high], _ => exact ⟨low, high, rfl⟩

namespace Comparator

variable {k : Comparator} {column : Column} {o : Operation} {v w : Value}

theorem convert_eq_ok_iff {s : Scalar} :
    k.convert column o v = .ok s ↔ k.operand? o v = some s := by
  rw [convert]
  split <;> simp [*]

theorem bound_eq_ok_iff (h : v.isNull = false) {b : Option Scalar} :
    k.bound column o v = .ok b ↔ ∃ s, k.operand? o v = some s ∧ some s = b := by
  cases v with
  | null => cases h
  | _ => simp only [bound, map_ok_iff, convert_eq_ok_iff]

theorem leaf_eq_ok_iff (h : v.isNull = false) {comparison : Comparison} {negated : Bool}
    {e : Expression} :
    k.leaf column o comparison negated v = .ok e ↔ ∃ s, k.operand? o v = some s ∧
      .compare column (k.projection o) comparison s negated = e := by
  cases v with
  | null => cases h
  | _ => simp only [leaf, bind_ok_iff, convert_eq_ok_iff, pure, Except.pure, Except.ok.injEq]

theorem bind_eq_ok_iff {values : List Value} {e : Expression} :
    k.bind column o values = .ok e ↔
      o.arity.accepts values.length = true ∧ k.supports o = true ∧
        match o.comparison? with
        | some (comparison, negated) =>
          ∃ es, values.mapM (k.leaf column o comparison negated) = .ok es ∧ .all es = e
        | none => ∃ low high, values = [low, high] ∧ k.range column o low high = .ok e := by
  unfold bind
  rw [bind_ok_iff]
  simp only [Operation.checkArity_eq_ok_iff, exists_const]
  refine and_congr_right fun ha => ?_
  cases hs : k.supports o with
  | false => simp [throw, throwThe, MonadExceptOf.throw, Bind.bind, Except.bind]
  | true =>
    rw [if_neg (by decide)]
    cases o.comparison? with
    | some p =>
      obtain ⟨comparison, negated⟩ := p
      simp only [bind_ok_iff, pure, Except.pure, Except.ok.injEq, true_and]
    | none =>
      match values with
      | [low, high] => simp [and_assoc]
      | [] => simp [throw, throwThe, MonadExceptOf.throw]
      | [_] => simp [throw, throwThe, MonadExceptOf.throw]
      | _ :: _ :: _ :: _ => simp [throw, throwThe, MonadExceptOf.throw]

theorem range_eq_ok_iff {low high : Value} {e : Expression} :
    k.range column o low high = .ok e ↔
      ∃ a, k.bound column o low = .ok a ∧ ∃ b, k.bound column o high = .ok b ∧
        (match a, b with
          | some a, some b => .between column (k.projection o) a b (o == .notBetween)
          | _, _ => .literal false) = e := by
  simp only [range, bind_ok_iff]
  refine exists_congr fun a => and_congr_right fun _ => exists_congr fun b =>
    and_congr_right fun _ => ?_
  cases a <;> cases b <;> simp [pure, Except.pure]

/-- The second operand can take the place of the first: it is null as the first one is, and is
the same scalar if that one is a scalar. -/
def StandsFor (k : Comparator) (o : Operation) (w v : Value) : Prop :=
  w.isNull = v.isNull ∧ ∀ s, k.operand? o v = some s → k.operand? o w = some s

end Comparator

theorem bindNull_eq_ok_iff {column : Column} {o : Operation} {values : List Value}
    {e : Expression} :
    bindNull column o values = .ok e ↔ o.arity.accepts values.length = true ∧
      (if o.comparison?.isNone then .literal false
        else .all (values.map fun v => if v.isNull then nullTest column o else .literal false)) =
          e := by
  rw [bindNull, bind_ok_iff,
    List.map_congr_left (g := fun v => if v.isNull then nullTest column o else .literal false)]
  · simp only [Operation.checkArity_eq_ok_iff, exists_const]
    cases o.comparison? with
    | none => simp [pure, Except.pure]
    | some p => simp [pure, Except.pure]
  · intro v _
    cases v <;> rfl

theorem bindNull_of_isNull {f : Value → Value} {column : Column} {o : Operation}
    {values : List Value} {e : Expression} (hf : ∀ v ∈ values, (f v).isNull = v.isNull)
    (h : bindNull column o values = .ok e) : bindNull column o (values.map f) = .ok e := by
  rw [bindNull_eq_ok_iff] at h ⊢
  rw [List.length_map, List.map_map, ← h.2]
  refine ⟨h.1, ?_⟩
  congr 2
  apply List.map_congr_left
  intro v hv
  rw [Function.comp_apply, hf v hv]

namespace Condition

variable {c : Condition} {schema : Schema} {defaultFormat : DateFormat} {e : Expression}

theorem bind_eq_ok_iff : c.bind schema defaultFormat = .ok e ↔
    ∃ target, Target.find schema c.field = .ok target ∧
      ∃ k?, target.comparator? c.case (c.format.getD defaultFormat) = .ok k? ∧
        (match k? with
          | some k => k.bind target.column c.operation c.values
          | none => bindNull target.column c.operation c.values) = .ok e := by
  unfold Condition.bind
  refine bind_ok_iff.trans (exists_congr fun target => and_congr_right fun _ =>
    bind_ok_iff.trans (exists_congr fun k? => and_congr_right fun _ => ?_))
  cases k? with
  | none => exact Iff.rfl
  | some k => exact Iff.rfl

theorem hasArity_of_bind (h : c.bind schema defaultFormat = .ok e) : c.HasArity := by
  obtain ⟨target, -, k?, -, h⟩ := bind_eq_ok_iff.1 h
  cases k? with
  | none => exact (bindNull_eq_ok_iff.1 h).1
  | some k => exact (Comparator.bind_eq_ok_iff.1 h).1

end Condition

end RecordSearch
