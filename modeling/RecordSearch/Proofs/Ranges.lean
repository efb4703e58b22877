import RecordSearch.Proofs.NullSafety

/-!
Ranges and the order. A range asks for what its two bounds ask as conditions of their own. On a
list the two conditions can be met by different elements, so there only one direction is left.

* `Scalar.isBetween_eq` and `Scalar.isBetween_self`: both bounds belong to a range;
* `Comparator.bind_bound_ok_iff`, `Comparator.bind_between_ok_iff`: a range and the conditions on
  its bounds are made of the same scalars;
* `Condition.between_agrees`: a range against the conditions on its bounds.
-/

namespace RecordSearch

namespace Scalar

variable (s low high : Scalar)

theorem isBetween_eq : s.isBetween low high =
    (s.satisfies .greaterThanOrEqual low && s.satisfies .lessThanOrEqual high) :=
  rfl

/-- What is neither below nor above is equal, and what does not compare is none of these. -/
theorem isBetween_self : s.isBetween low low = s.satisfies .equal low := by
  rw [isBetween_eq]
  cases h : s.compare? low with
  | none => simp [satisfies, Comparison.isTextual, h]
  | some o => cases o <;> simp [satisfies, Comparison.isTextual, Comparison.admits, h]

end Scalar

section Columns

variable {v : Value} {many : Bool} {p : Projection} {f g h : Scalar → Bool}

/-- A scalar column meets two tests together if it meets each. -/
theorem columnMatches_and (hfg : ∀ s, h s = (f s && g s)) :
    columnMatches v false p false h =
      (columnMatches v false p false f && columnMatches v false p false g) := by
  cases hv : p.project? v with
  | none => simp [columnMatches, hv]
  | some s => simp [columnMatches, hv, hfg]

/-- A column that meets a test meets every weaker one. -/
theorem columnMatches_mono (hfg : ∀ s, h s = true → f s = true)
    (hmatch : columnMatches v many p false h = true) : columnMatches v many p false f = true := by
  cases many with
  | false =>
    cases hv : p.project? v with
    | none => simp [columnMatches, hv] at hmatch
    | some s =>
      simp only [columnMatches, hv, Bool.bne_false, Bool.false_eq_true, if_false] at hmatch ⊢
      exact hfg s hmatch
  | true =>
    cases v with
    | list items =>
      simp only [columnMatches, if_true, Bool.bne_false, List.any_eq_true] at hmatch ⊢
      obtain ⟨s, hs, htest⟩ := hmatch
      exact ⟨s, hs, hfg s htest⟩
    | _ => simp [columnMatches] at hmatch

end Columns

namespace Comparator

variable {k : Comparator} {column : Column} {o p : Operation} {comparison : Comparison}
  {v low high : Value} {e : Expression}

/-- The rules tell operations apart only by whether they look for a fragment. -/
theorem projection_congr (h : o.isTextual = p.isTextual) : k.projection o = k.projection p := by
  cases k <;> simp [projection, h]

theorem operand?_congr (h : o.isTextual = p.isTextual) : k.operand? o v = k.operand? p v := by
  cases k <;> cases v <;> simp [operand?, h]

/-- What a bound alone asks of a column. -/
def ask (k : Comparator) (column : Column) (comparison : Comparison) (b : Option Scalar) :
    Expression :=
  b.elim (.literal false) fun s => .compare column (k.projection .between) comparison s false

/-- What two bounds together ask of a column. -/
def askRange (k : Comparator) (column : Column) (low high : Option Scalar) : Expression :=
  low.elim (.literal false) fun a =>
    high.elim (.literal false) fun b => .between column (k.projection .between) a b false

/-- A comparison that null does not satisfy asks what a bound of a range asks. -/
theorem bind_bound_ok_iff (hc : o.comparison? = some (comparison, false))
    (htext : comparison.isTextual = false)
    (hnull : v = .null → nullTest column o = .literal false) :
    k.bind column o [v] = .ok e ↔ k.supports o = true ∧
      ∃ b, k.bound column .between v = .ok b ∧ k.ask column comparison b = e := by
  have ho : o.isTextual = Operation.between.isTextual := by
    rw [Operation.isTextual, hc]
    exact htext
  cases hv : v.isNull with
  | true =>
    obtain rfl := Value.isNull_iff.1 hv
    cases hs : k.supports o with
    | true => simp [bind_singleton hc hs, leaf, hnull rfl, bound, ask]
    | false =>
      rw [bind_of_not_supports (Operation.accepts_of_ne_nil hc (List.cons_ne_nil _ [])) hs]
      simp
  | false =>
    rw [bind_one_ok_iff hc (Value.isNull_eq_false_iff.1 hv), projection_congr ho,
      operand?_congr ho]
    simp only [bound_eq_ok_iff hv]
    constructor
    · rintro ⟨hs, s, hoperand, rfl⟩
      exact ⟨hs, some s, ⟨s, hoperand, rfl⟩, rfl⟩
    · rintro ⟨hs, _, ⟨s, hoperand, rfl⟩, rfl⟩
      exact ⟨hs, s, hoperand, rfl⟩

theorem range_between_ok_iff : k.range column .between low high = .ok e ↔
    ∃ a, k.bound column .between low = .ok a ∧ ∃ b, k.bound column .between high = .ok b ∧
      k.askRange column a b = e := by
  rw [range_eq_ok_iff]
  refine exists_congr fun a => and_congr_right fun _ => exists_congr fun b =>
    and_congr_right fun _ => ?_
  cases a with
  | none => rfl
  | some a => cases b <;> rfl

theorem bind_between_ok_iff :
    k.bind column .between [low, high] = .ok e ↔ k.supports .between = true ∧
      ∃ a, k.bound column .between low = .ok a ∧ ∃ b, k.bound column .between high = .ok b ∧
        k.askRange column a b = e := by
  rw [bind_eq_ok_iff, ← range_between_ok_iff]
  constructor
  · rintro ⟨-, hs, _, _, ⟨rfl, rfl⟩, h⟩
    exact ⟨hs, h⟩
  · rintro ⟨hs, h⟩
    exact ⟨rfl, hs, low, high, rfl, h⟩

variable (k column) {row : Row} (a b : Option Scalar)

theorem evaluate_askRange (hmany : column.many = false) :
    (k.askRange column a b).evaluate row =
      ((k.ask column .greaterThanOrEqual a).evaluate row &&
        (k.ask column .lessThanOrEqual b).evaluate row) := by
  cases a with
  | none => rfl
  | some a =>
    cases b with
    | none => simp [askRange, ask, Expression.evaluate]
    | some b =>
      simp only [askRange, ask, Option.elim_some, Expression.evaluate, hmany]
      exact columnMatches_and fun s => Scalar.isBetween_eq s a b

theorem evaluate_ask_of_askRange (h : (k.askRange column a b).evaluate row = true) :
    (k.ask column .greaterThanOrEqual a).evaluate row = true ∧
      (k.ask column .lessThanOrEqual b).evaluate row = true := by
  cases a with
  | none => cases h
  | some a =>
    cases b with
    | none => cases h
    | some b =>
      constructor
      · refine columnMatches_mono (fun s hs => ?_) h
        rw [Scalar.isBetween_eq, Bool.and_eq_true] at hs
        exact hs.1
      · refine columnMatches_mono (fun s hs => ?_) h
        rw [Scalar.isBetween_eq, Bool.and_eq_true] at hs
        exact hs.2

theorem evaluate_askRange_self :
    (k.askRange column a a).evaluate row = (k.ask column .equal a).evaluate row := by
  cases a with
  | none => rfl
  | some a => simp only [askRange, ask, Option.elim_some, Expression.evaluate,
      Scalar.isBetween_self]

end Comparator

/-- A field of nothing but null meets no comparison but the question for null. -/
theorem bindNull_comparison {column : Column} {o : Operation} {p : Comparison × Bool} {v : Value}
    (hc : o.comparison? = some p) (hnull : v = .null → nullTest column o = .literal false) :
    bindNull column o [v] = .ok (.literal false) := by
  rw [bindNull_eq_leaves hc (List.cons_ne_nil v [])]
  cases hv : v.isNull with
  | true => simp [Expression.all, nullLeaf, hv, hnull (Value.isNull_iff.1 hv)]
  | false => simp [Expression.all, nullLeaf, hv]

namespace Condition

variable {c : Condition} {schema : Schema} {defaultFormat : DateFormat} {t : Target}

/-- The condition with another operation and other operands in the place of its own. -/
def asking (c : Condition) (o : Operation) (values : List Value) : Condition :=
  { c with operation := o, values := values }

theorem bind_asking_of_find (h : Target.find schema c.field = .ok t) (o : Operation)
    (values : List Value) :
    (c.asking o values).bind schema defaultFormat =
      match t.type.comparator? c.case (c.format.getD defaultFormat) with
      | some k => k.bind t.column o values
      | none => bindNull t.column o values :=
  bind_of_find h

theorem exists_bind_between_iff (low high : Value) :
    (∃ e, (c.asking .between [low, high]).bind schema defaultFormat = .ok e) ↔
      (∃ e, (c.asking .greaterThanOrEqual [low]).bind schema defaultFormat = .ok e) ∧
        ∃ e, (c.asking .lessThanOrEqual [high]).bind schema defaultFormat = .ok e := by
  cases ht : Target.find schema c.field with
  | error err =>
    have hnone : ∀ o values, (c.asking o values).bind schema defaultFormat = .error err :=
      fun o values => bind_of_find_error (c := c.asking o values) ht
    simp [hnone]
  | ok t =>
    simp only [bind_asking_of_find ht]
    cases t.type.comparator? c.case (c.format.getD defaultFormat) with
    | none =>
      have hlow : bindNull t.column .greaterThanOrEqual [low] = .ok (.literal false) :=
        bindNull_comparison rfl fun _ => rfl
      have hhigh : bindNull t.column .lessThanOrEqual [high] = .ok (.literal false) :=
        bindNull_comparison rfl fun _ => rfl
      exact iff_of_true ⟨.literal false, rfl⟩ ⟨⟨_, hlow⟩, _, hhigh⟩
    | some k =>
      have hsupports : k.supports .greaterThanOrEqual = k.supports .between ∧
          k.supports .lessThanOrEqual = k.supports .between := by
        cases k <;> exact ⟨rfl, rfl⟩
      simp only [Comparator.bind_between_ok_iff,
        Comparator.bind_bound_ok_iff (o := .greaterThanOrEqual) rfl rfl fun _ => rfl,
        Comparator.bind_bound_ok_iff (o := .lessThanOrEqual) rfl rfl fun _ => rfl,
        hsupports.1, hsupports.2]
      constructor
      · rintro ⟨_, hs, a, ha, b, hb, -⟩
        exact ⟨⟨_, hs, a, ha, rfl⟩, _, hs, b, hb, rfl⟩
      · rintro ⟨⟨_, hs, a, ha, -⟩, _, -, b, hb, -⟩
        exact ⟨_, hs, a, ha, b, hb, rfl⟩

variable {low high : Value} {e d f : Expression}

theorem evaluate_between (ht : Target.find schema c.field = .ok t)
    (he : (c.asking .between [low, high]).bind schema defaultFormat = .ok e)
    (hd : (c.asking .greaterThanOrEqual [low]).bind schema defaultFormat = .ok d)
    (hf : (c.asking .lessThanOrEqual [high]).bind schema defaultFormat = .ok f) (row : Row) :
    (t.many = false → e.evaluate row = (d.evaluate row && f.evaluate row)) ∧
      (e.evaluate row = true → d.evaluate row = true ∧ f.evaluate row = true) := by
  rw [bind_asking_of_find ht] at he hd hf
  cases hk : t.type.comparator? c.case (c.format.getD defaultFormat) with
  | none =>
    simp only [hk] at he hd hf
    obtain rfl : .literal false = e := Except.ok.inj he
    rw [bindNull_comparison rfl fun _ => rfl] at hd hf
    obtain rfl := Except.ok.inj hd
    obtain rfl := Except.ok.inj hf
    exact ⟨fun _ => rfl, fun h => by cases h⟩
  | some k =>
    simp only [hk] at he hd hf
    obtain ⟨-, a, ha, b, hb, rfl⟩ := Comparator.bind_between_ok_iff.1 he
    obtain ⟨-, a', ha', rfl⟩ := (Comparator.bind_bound_ok_iff rfl rfl fun _ => rfl).1 hd
    obtain ⟨-, b', hb', rfl⟩ := (Comparator.bind_bound_ok_iff rfl rfl fun _ => rfl).1 hf
    obtain rfl := Except.ok.inj (ha.symm.trans ha')
    obtain rfl := Except.ok.inj (hb.symm.trans hb')
    exact ⟨k.evaluate_askRange t.column a b, k.evaluate_ask_of_askRange t.column a b⟩

theorem evaluate_between_self (hlow : low ≠ .null)
    (he : (c.asking .between [low, low]).bind schema defaultFormat = .ok e)
    (hd : (c.asking .equal [low]).bind schema defaultFormat = .ok d) (row : Row) :
    e.evaluate row = d.evaluate row := by
  obtain ⟨t, ht, -⟩ := bind_eq_ok_iff.1 he
  replace ht : Target.find schema c.field = .ok t := ht
  rw [bind_asking_of_find ht] at he hd
  cases hk : t.type.comparator? c.case (c.format.getD defaultFormat) with
  | none =>
    simp only [hk] at he hd
    obtain rfl : .literal false = e := Except.ok.inj he
    rw [bindNull_comparison rfl fun h => absurd h hlow] at hd
    obtain rfl := Except.ok.inj hd
    rfl
  | some k =>
    simp only [hk] at he hd
    obtain ⟨-, a, ha, b, hb, rfl⟩ := Comparator.bind_between_ok_iff.1 he
    obtain ⟨-, a', ha', rfl⟩ := (Comparator.bind_bound_ok_iff rfl rfl fun h => absurd h hlow).1 hd
    obtain rfl := Except.ok.inj (ha.symm.trans ha')
    obtain rfl := Except.ok.inj (hb.symm.trans ha)
    exact k.evaluate_askRange_self t.column _

/-- **Ranges agree with the order.** A range is bound if the conditions on its bounds are. On a
scalar field it holds if both of them do, and on a list it implies both. A range of one value asks
for that value. -/
theorem between_agrees (c : Condition) (schema : Schema) (defaultFormat : DateFormat)
    (low high : Value) :
    ((∃ e, (c.asking .between [low, high]).bind schema defaultFormat = .ok e) ↔
      (∃ e, (c.asking .greaterThanOrEqual [low]).bind schema defaultFormat = .ok e) ∧
        ∃ e, (c.asking .lessThanOrEqual [high]).bind schema defaultFormat = .ok e) ∧
    (∀ t e d f, Target.find schema c.field = .ok t →
      (c.asking .between [low, high]).bind schema defaultFormat = .ok e →
      (c.asking .greaterThanOrEqual [low]).bind schema defaultFormat = .ok d →
      (c.asking .lessThanOrEqual [high]).bind schema defaultFormat = .ok f → ∀ row,
        (t.many = false → e.evaluate row = (d.evaluate row && f.evaluate row)) ∧
        (t.many = true → e.evaluate row = true → d.evaluate row = true ∧ f.evaluate row = true)) ∧
    (low ≠ .null → ∀ e d, (c.asking .between [low, low]).bind schema defaultFormat = .ok e →
      (c.asking .equal [low]).bind schema defaultFormat = .ok d →
        ∀ row, e.evaluate row = d.evaluate row) := by
  refine ⟨exists_bind_between_iff low high, ?_, ?_⟩
  · intro t e d f ht he hd hf row
    obtain ⟨hscalar, himplies⟩ := evaluate_between ht he hd hf row
    exact ⟨hscalar, fun _ => himplies⟩
  · intro hlow e d he hd row
    exact evaluate_between_self hlow he hd row

/-- A range of folded names on a scalar field, and a range of one mark on a list. -/
theorem between_agrees_marks :
    let schema : Schema := ⟨[⟨"Name", .optional .string⟩, ⟨"Marks", .list (.number .i32)⟩]⟩
    let name : Condition := (plain "name" .equal []).withCase .lower
    let marks : Condition := plain "MARKS" .equal []
    let three : Value := .number (.int 3)
    let row : Row := [.text "Ken", .list [.number (.int 1), .null, .number (.int 9)]]
    (∃ e d f, (name.asking .between [.text "Al", .text "M"]).bind schema .isoDateTime = .ok e ∧
      (name.asking .greaterThanOrEqual [.text "Al"]).bind schema .isoDateTime = .ok d ∧
      (name.asking .lessThanOrEqual [.text "M"]).bind schema .isoDateTime = .ok f ∧
      e.evaluate row = (d.evaluate row && f.evaluate row)) ∧
    ∃ e d, (marks.asking .between [three, three]).bind schema .isoDateTime = .ok e ∧
      (marks.asking .equal [three]).bind schema .isoDateTime = .ok d ∧
      e.evaluate row = d.evaluate row := by
  intro schema name marks three row
  have hfind : Target.find schema name.field = .ok ⟨0, "Name", .string, .string, false⟩ := by
    simp only [schema, name]
    rfl
  obtain ⟨hbinds, hrange, -⟩ := between_agrees name schema .isoDateTime (.text "Al") (.text "M")
  obtain ⟨-, -, hself⟩ := between_agrees marks schema .isoDateTime three .null
  constructor
  · obtain ⟨e, he⟩ : ∃ e, (name.asking .between [.text "Al", .text "M"]).bind schema
        .isoDateTime = .ok e := by
      simp only [schema, name]
      exact ⟨_, rfl⟩
    obtain ⟨⟨d, hd⟩, f, hf⟩ := hbinds.1 ⟨e, he⟩
    exact ⟨e, d, f, he, hd, hf, (hrange _ e d f hfind he hd hf row).1 rfl⟩
  · obtain ⟨e, he⟩ : ∃ e, (marks.asking .between [three, three]).bind schema .isoDateTime =
        .ok e := by
      simp only [schema, marks, three]
      exact ⟨_, rfl⟩
    obtain ⟨d, hd⟩ : ∃ d, (marks.asking .equal [three]).bind schema .isoDateTime = .ok d := by
      simp only [schema, marks, three]
      exact ⟨_, rfl⟩
    exact ⟨e, d, he, hd, hself (by simp [three]) e d he hd row⟩

end Condition

end RecordSearch
