import RecordSearch.Proofs.Binding
import RecordSearch.Proofs.Classification
import RecordSearch.Proofs.Meaning
import Mathlib.Data.List.Forall2

/-!
Conditions operand by operand. Outside of ranges each operand makes a condition of its own, and the
whole condition is the conjunction of these.

* `Condition.bind_eq_mapM`: binding is binding each operand alone, errors included;
* `Condition.evaluate_eq_all`: a row satisfies the condition if it does so with each operand;
* `Comparator.bind_scalars`: what operands that are all scalars are bound to;
* `Condition.bind_only_ok` and `Condition.bind_range_ok`: what one operand is bound to, and what
  the two bounds of a range are.
-/

namespace RecordSearch

theorem Operation.accepts_of_ne_nil {o : Operation} {p : Comparison × Bool} {values : List Value}
    (hc : o.comparison? = some p) (hne : values ≠ []) :
    o.arity.accepts values.length = true := by
  have hpos := List.length_pos_iff.2 hne
  cases o with
  | between | notBetween => cases hc
  | _ => exact decide_eq_true hpos

theorem Operation.ne_nil_of_accepts {o : Operation} {values : List Value}
    (h : o.arity.accepts values.length = true) : values ≠ [] := by
  rintro rfl
  cases o <;> simp [arity, Arity.accepts] at h

theorem mapM_error_of_ne_nil {ε α β : Type} {as : List α} (hne : as ≠ []) (err : ε) :
    (as.mapM fun _ => (.error err : Except ε β)) = .error err := by
  cases as with
  | nil => exact absurd rfl hne
  | cons a rest => rfl

theorem mapM_ok_of_forall₂ {ε α β : Type} {f : α → Except ε β} {as : List α} {bs : List β}
    (h : List.Forall₂ (fun a b => f a = .ok b) as bs) : as.mapM f = .ok bs := by
  induction h with
  | nil => rfl
  | cons ha hrest ih => exact mapM_cons_ok_iff.2 ⟨_, ha, _, ih, rfl⟩

namespace Comparator

variable {k : Comparator} {column : Column} {o : Operation} {comparison : Comparison}
  {negated : Bool} {values : List Value}

theorem bind_of_not_supports (ha : o.arity.accepts values.length = true)
    (hs : k.supports o = false) :
    k.bind column o values = .error (.unsupportedOperation k.kind o) := by
  have harity : o.checkArity values.length = .ok () := if_pos ha
  unfold bind
  rw [harity, hs]
  rfl

theorem bind_eq_leaves (hc : o.comparison? = some (comparison, negated)) (hne : values ≠ [])
    (hs : k.supports o = true) :
    k.bind column o values = (values.mapM (k.leaf column o comparison negated)).map .all := by
  have harity : o.checkArity values.length = .ok () := if_pos (Operation.accepts_of_ne_nil hc hne)
  unfold bind
  rw [harity]
  simp only [hs, hc]
  cases values.mapM (k.leaf column o comparison negated) <;> rfl

/-- A single operand is bound to its leaf. -/
theorem bind_singleton (hc : o.comparison? = some (comparison, negated))
    (hs : k.supports o = true) (v : Value) :
    k.bind column o [v] = k.leaf column o comparison negated v := by
  rw [bind_eq_leaves hc (List.cons_ne_nil v []) hs, List.mapM_cons]
  cases k.leaf column o comparison negated v <;> rfl

theorem bind_eq_mapM (hc : o.comparison? = some (comparison, negated)) (hne : values ≠ []) :
    k.bind column o values = (values.mapM fun v => k.bind column o [v]).map .all := by
  have ha {vs : List Value} (h : vs ≠ []) := Operation.accepts_of_ne_nil hc h
  cases hs : k.supports o with
  | true => simp only [bind_singleton hc hs, bind_eq_leaves hc hne hs]
  | false =>
    have hone : ∀ v, k.bind column o [v] = .error (.unsupportedOperation k.kind o) := fun v =>
      bind_of_not_supports (ha (List.cons_ne_nil v [])) hs
    simp only [bind_of_not_supports (ha hne) hs, hone, mapM_error_of_ne_nil hne, Except.map]

theorem ne_null_of_bound {v : Value} {s : Scalar} (h : k.bound column o v = .ok (some s)) :
    v ≠ .null := by
  rintro rfl
  cases h

theorem range_ok {low high : Value} {e : Expression} (h : k.range column o low high = .ok e) :
    e = .literal false ∨ low ≠ .null ∧ high ≠ .null ∧
      ∃ a b, e = .between column (k.projection o) a b (o == .notBetween) := by
  obtain ⟨a, ha, b, hb, rfl⟩ := range_eq_ok_iff.1 h
  cases a with
  | none => exact .inl rfl
  | some a =>
    cases b with
    | none => exact .inl rfl
    | some b => exact .inr ⟨ne_null_of_bound ha, ne_null_of_bound hb, a, b, rfl⟩

theorem bind_one_ok_iff {v : Value} {e : Expression}
    (hc : o.comparison? = some (comparison, negated)) (hv : v ≠ .null) :
    k.bind column o [v] = .ok e ↔ k.supports o = true ∧
      ∃ s, k.operand? o v = some s ∧ .compare column (k.projection o) comparison s negated = e := by
  have hnull := Value.isNull_eq_false_iff.2 hv
  cases hs : k.supports o with
  | true => simp only [bind_singleton hc hs, leaf_eq_ok_iff hnull, true_and]
  | false =>
    rw [bind_of_not_supports (Operation.accepts_of_ne_nil hc (List.cons_ne_nil v [])) hs]
    simp

/-- Without a null among its bounds a range is one of scalars. -/
theorem range_of_ne_null_ok_iff {low high : Value} {e : Expression} (hlow : low ≠ .null)
    (hhigh : high ≠ .null) : k.range column o low high = .ok e ↔
      ∃ a, k.operand? o low = some a ∧ ∃ b, k.operand? o high = some b ∧
        .between column (k.projection o) a b (o == .notBetween) = e := by
  rw [range_eq_ok_iff]
  simp only [bound_eq_ok_iff (Value.isNull_eq_false_iff.2 hlow),
    bound_eq_ok_iff (Value.isNull_eq_false_iff.2 hhigh)]
  constructor
  · rintro ⟨_, ⟨a, ha, rfl⟩, _, ⟨b, hb, rfl⟩, rfl⟩
    exact ⟨a, ha, b, hb, rfl⟩
  · rintro ⟨a, ha, b, hb, rfl⟩
    exact ⟨some a, ⟨a, ha, rfl⟩, some b, ⟨b, hb, rfl⟩, rfl⟩

theorem bind_two_ok_iff {low high : Value} {e : Expression} (hc : o.comparison? = none)
    (hlow : low ≠ .null) (hhigh : high ≠ .null) :
    k.bind column o [low, high] = .ok e ↔ k.supports o = true ∧
      ∃ a, k.operand? o low = some a ∧ ∃ b, k.operand? o high = some b ∧
        .between column (k.projection o) a b (o == .notBetween) = e := by
  have harity : o.arity.accepts [low, high].length = true := by
    cases o with
    | between | notBetween => rfl
    | _ => cases hc
  rw [bind_eq_ok_iff, hc, ← range_of_ne_null_ok_iff hlow hhigh]
  constructor
  · rintro ⟨-, hs, _, _, ⟨rfl, rfl⟩, h⟩
    exact ⟨hs, h⟩
  · rintro ⟨hs, h⟩
    exact ⟨harity, hs, low, high, rfl, h⟩

theorem ne_null_of_operand? {v : Value} {b : Scalar} (h : k.operand? o v = some b) :
    v ≠ .null := by
  rintro rfl
  cases k <;> cases h

/-- What is asked of a column by operands that are scalars. -/
def askScalars (k : Comparator) (column : Column) (o : Operation) (bs : List Scalar) :
    Expression :=
  match o.comparison?, bs with
  | some (comparison, negated), bs =>
    .all (bs.map fun b => .compare column (k.projection o) comparison b negated)
  | none, [low, high] => .between column (k.projection o) low high (o == .notBetween)
  | none, _ => .literal false

theorem bind_scalars (hs : k.supports o = true) (ha : o.arity.accepts values.length = true)
    {bs : List Scalar} (h : List.Forall₂ (fun v b => k.operand? o v = some b) values bs) :
    k.bind column o values = .ok (k.askScalars column o bs) := by
  cases hc : o.comparison? with
  | some p =>
    obtain ⟨comparison, negated⟩ := p
    simp only [askScalars, hc, bind_eq_ok_iff]
    refine ⟨ha, hs, _, mapM_ok_of_forall₂ ?_, rfl⟩
    rw [List.forall₂_map_right_iff]
    refine h.imp fun v b hb => ?_
    exact (leaf_eq_ok_iff (Value.isNull_eq_false_iff.2 (ne_null_of_operand? hb))).2 ⟨b, hb, rfl⟩
  | none =>
    obtain ⟨low, high, rfl⟩ := Operation.eq_pair_of_accepts hc ha
    rcases h with _ | ⟨hlow, _ | ⟨hhigh, ⟨⟩⟩⟩
    simp only [askScalars, hc]
    exact (bind_two_ok_iff hc (ne_null_of_operand? hlow) (ne_null_of_operand? hhigh)).2
      ⟨hs, _, hlow, _, hhigh, rfl⟩

end Comparator

/-- What an operand asks of a field that holds nothing but null. -/
def nullLeaf (column : Column) (o : Operation) (v : Value) : Expression :=
  if v.isNull then nullTest column o else .literal false

theorem bindNull_eq_leaves {column : Column} {o : Operation} {p : Comparison × Bool}
    {values : List Value} (hc : o.comparison? = some p) (hne : values ≠ []) :
    bindNull column o values = .ok (.all (values.map (nullLeaf column o))) := by
  rw [bindNull_eq_ok_iff, hc]
  exact ⟨Operation.accepts_of_ne_nil hc hne, rfl⟩

theorem bindNull_eq_mapM {column : Column} {o : Operation} {p : Comparison × Bool}
    {values : List Value} (hc : o.comparison? = some p) (hne : values ≠ []) :
    bindNull column o values = (values.mapM fun v => bindNull column o [v]).map .all := by
  have hone : ∀ v ∈ values, bindNull column o [v] = .ok (nullLeaf column o v) := fun v _ =>
    bindNull_eq_leaves hc (List.cons_ne_nil v [])
  have hall := mapM_map_ok (f := id) (g := fun v => bindNull column o [v]) hone
  rw [List.map_id] at hall
  rw [bindNull_eq_leaves hc hne, hall]
  rfl

namespace Condition

variable {c : Condition} {schema : Schema} {defaultFormat : DateFormat} {e : Expression}
  {comparison : Comparison} {negated : Bool} {v : Value} {row : Row}

/-- The condition with one operand in the place of its own. -/
def only (c : Condition) (v : Value) : Condition := { c with values := [v] }

theorem bind_only_of_find {t : Target} (h : Target.find schema c.field = .ok t) (v : Value) :
    (c.only v).bind schema defaultFormat =
      match t.type.comparator? c.case (c.format.getD defaultFormat) with
      | some k => k.bind t.column c.operation [v]
      | none => bindNull t.column c.operation [v] :=
  bind_of_find h

/-- **A condition is bound operand by operand.** Its expression is the conjunction of those of its
operands, and its error the first of theirs. -/
theorem bind_eq_mapM (hc : c.operation.comparison? = some (comparison, negated))
    (hne : c.values ≠ []) : c.bind schema defaultFormat =
      (c.values.mapM fun v => (c.only v).bind schema defaultFormat).map .all := by
  cases hfind : Target.find schema c.field with
  | error err =>
    have hone : ∀ v, (c.only v).bind schema defaultFormat = .error err := fun v =>
      bind_of_find_error hfind
    simp only [bind_of_find_error hfind, hone, mapM_error_of_ne_nil hne, Except.map]
  | ok t =>
    simp only [bind_of_find hfind, bind_only_of_find hfind]
    cases t.type.comparator? c.case (c.format.getD defaultFormat) with
    | none => exact bindNull_eq_mapM hc hne
    | some k => exact Comparator.bind_eq_mapM hc hne

theorem exists_bind_iff (hc : c.operation.comparison? = some (comparison, negated))
    (hne : c.values ≠ []) : (∃ e, c.bind schema defaultFormat = .ok e) ↔
      ∀ v ∈ c.values, ∃ e, (c.only v).bind schema defaultFormat = .ok e := by
  rw [← exists_mapM_ok_iff, bind_eq_mapM hc hne]
  simp only [map_ok_iff]
  constructor
  · rintro ⟨e, es, hes, -⟩
    exact ⟨es, hes⟩
  · rintro ⟨es, hes⟩
    exact ⟨.all es, es, hes, rfl⟩

theorem evaluate_eq_all_of {q : Value → Bool}
    (hc : c.operation.comparison? = some (comparison, negated))
    (h : c.bind schema defaultFormat = .ok e)
    (hq : ∀ v ∈ c.values, ∀ b, (c.only v).bind schema defaultFormat = .ok b →
      b.evaluate row = q v) : e.evaluate row = c.values.all q := by
  have hne := Operation.ne_nil_of_accepts (hasArity_of_bind h)
  rw [bind_eq_mapM hc hne] at h
  obtain ⟨es, hes, rfl⟩ := map_ok_iff.1 h
  rw [Expression.evaluate_all]
  exact all_of_mapM hes hq

/-- A row satisfies the condition if it does so with each operand alone. -/
theorem evaluate_eq_all (hc : c.operation.comparison? = some (comparison, negated))
    (h : c.bind schema defaultFormat = .ok e) (row : Row) :
    e.evaluate row = c.values.all fun v => (c.only v).holds schema defaultFormat row := by
  apply evaluate_eq_all_of hc h
  intro v _ b hb
  rw [holds, hb]

/-- A null makes a null test, and any other operand a comparison, unless the field holds nothing
but null. -/
theorem bind_only_ok {t : Target} (hc : c.operation.comparison? = some (comparison, negated))
    (ht : Target.find schema c.field = .ok t) (h : (c.only v).bind schema defaultFormat = .ok e) :
    v.isNull = true ∧ e = nullTest t.column c.operation ∨
      v.isNull = false ∧
        (e = .literal false ∨ ∃ p s, e = .compare t.column p comparison s negated) := by
  rw [bind_only_of_find ht] at h
  cases hk : t.type.comparator? c.case (c.format.getD defaultFormat) with
  | none =>
    rw [hk, bindNull_eq_leaves hc (List.cons_ne_nil v [])] at h
    obtain rfl : nullLeaf t.column c.operation v = e := Except.ok.inj h
    cases hv : v.isNull <;> simp [nullLeaf, hv]
  | some k =>
    rw [hk] at h
    have hs : k.supports c.operation = true := (Comparator.bind_eq_ok_iff.1 h).2.1
    replace h : k.leaf t.column c.operation comparison negated v = .ok e := by
      rwa [← Comparator.bind_singleton hc hs]
    cases hv : v.isNull with
    | true =>
      obtain rfl := Value.isNull_iff.1 hv
      obtain rfl := Except.ok.inj h
      exact .inl ⟨rfl, rfl⟩
    | false =>
      obtain ⟨s, -, rfl⟩ := (Comparator.leaf_eq_ok_iff hv).1 h
      exact .inr ⟨rfl, .inr ⟨_, s, rfl⟩⟩

/-- A null bound makes a range that no field is in. -/
theorem bind_range_ok {t : Target} (hc : c.operation.comparison? = none)
    (ht : Target.find schema c.field = .ok t) (h : c.bind schema defaultFormat = .ok e) :
    e = .literal false ∨ .null ∉ c.values ∧
      ∃ p low high, e = .between t.column p low high (c.operation == .notBetween) := by
  rw [bind_of_find ht] at h
  cases hk : t.type.comparator? c.case (c.format.getD defaultFormat) with
  | none =>
    simp only [hk, bindNull_eq_ok_iff, hc] at h
    exact .inl h.2.symm
  | some k =>
    simp only [hk, Comparator.bind_eq_ok_iff, hc] at h
    obtain ⟨-, -, low, high, hvalues, h⟩ := h
    rcases Comparator.range_ok h with rfl | ⟨hlow, hhigh, a, b, rfl⟩
    · exact .inl rfl
    · refine .inr ⟨?_, _, a, b, rfl⟩
      rw [hvalues]
      simp [hlow.symm, hhigh.symm]

end Condition

end RecordSearch
