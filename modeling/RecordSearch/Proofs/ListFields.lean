import RecordSearch.Proofs.Complements

/-!
Fields that are lists. A condition asks the same of each element of a list as it asks of a scalar
field: one element has to meet it, or, if it is negated, all elements that are not null.

* `Comparator.test?`: what operands ask of a scalar, whatever the column;
* `columnMatches_list` and `columnMatches_list_negated`: the columns of lists, element by element;
* `Condition.list_field_folds`: a list field against the scalar field of its elements.
-/

namespace RecordSearch

/-- With as few operands as an operation takes there is one, or there are the two bounds of a
range. -/
theorem Operation.operands_of_least {o : Operation} {values : List Value}
    (h : values.length = o.arity.least) :
    (∃ comparison v, o.comparison? = some (comparison, o.isNegated) ∧ values = [v]) ∨
      o.comparison? = none ∧ (o == .notBetween) = o.isNegated ∧
        ∃ low high, values = [low, high] := by
  cases o with
  | between => exact .inr ⟨rfl, rfl, eq_pair_of_accepts (o := .between) rfl (beq_iff_eq.2 h)⟩
  | notBetween => exact .inr ⟨rfl, rfl, eq_pair_of_accepts (o := .notBetween) rfl (beq_iff_eq.2 h)⟩
  | _ =>
    obtain ⟨v, rfl⟩ := List.length_eq_one_iff.1 h
    exact .inl ⟨_, v, rfl, rfl⟩

namespace Comparator

variable {k : Comparator} {column : Column} {o : Operation} {values : List Value} {e : Expression}

/-- What one operand, or the two bounds of a range, ask of a scalar before any negation. -/
def test? (k : Comparator) (o : Operation) (values : List Value) : Option (Scalar → Bool) :=
  match o.comparison?, values with
  | some (comparison, _), [v] => (k.operand? o v).map fun b s => s.satisfies comparison b
  | none, [low, high] => do
    let a ← k.operand? o low
    let b ← k.operand? o high
    return fun s => s.isBetween a b
  | _, _ => none

/-- Whether operands are taken does not depend on the column. -/
theorem exists_bind_iff_test (hcount : values.length = o.arity.least)
    (hnull : ∀ v ∈ values, v ≠ .null) : (∃ e, k.bind column o values = .ok e) ↔
      k.supports o = true ∧ ∃ test, k.test? o values = some test := by
  rcases Operation.operands_of_least hcount with ⟨comparison, v, hc, rfl⟩ | ⟨hc, -, low, high, rfl⟩
  · have hv : v ≠ .null := hnull v List.mem_cons_self
    simp only [bind_one_ok_iff hc hv, test?, hc, Option.map_eq_some_iff]
    constructor
    · rintro ⟨_, hs, b, hb, -⟩
      exact ⟨hs, _, b, hb, rfl⟩
    · rintro ⟨hs, _, b, hb, -⟩
      exact ⟨_, hs, b, hb, rfl⟩
  · have hlow : low ≠ .null := hnull low (by simp)
    have hhigh : high ≠ .null := hnull high (by simp)
    simp only [bind_two_ok_iff hc hlow hhigh, test?, hc, Option.bind_eq_bind,
      Option.bind_eq_some_iff]
    constructor
    · rintro ⟨_, hs, a, ha, b, hb, -⟩
      exact ⟨hs, _, a, ha, b, hb, rfl⟩
    · rintro ⟨hs, _, a, ha, b, hb, -⟩
      exact ⟨_, hs, a, ha, b, hb, rfl⟩

theorem exists_test_of_bind (hcount : values.length = o.arity.least)
    (hnull : ∀ v ∈ values, v ≠ .null) (h : k.bind column o values = .ok e) :
    ∃ test, k.test? o values = some test ∧ ∀ row, e.evaluate row =
      columnMatches (Row.value row column.index) column.many (k.projection o) o.isNegated test := by
  rcases Operation.operands_of_least hcount with
    ⟨comparison, v, hc, rfl⟩ | ⟨hc, hnegated, low, high, rfl⟩
  · have hv : v ≠ .null := hnull v List.mem_cons_self
    obtain ⟨-, b, hb, rfl⟩ := (bind_one_ok_iff hc hv).1 h
    refine ⟨fun s => s.satisfies comparison b, ?_, fun row => rfl⟩
    simp only [test?, hc, hb, Option.map_some]
  · have hlow : low ≠ .null := hnull low (by simp)
    have hhigh : high ≠ .null := hnull high (by simp)
    obtain ⟨-, a, ha, b, hb, rfl⟩ := (bind_two_ok_iff hc hlow hhigh).1 h
    refine ⟨fun s => s.isBetween a b, ?_, ?_⟩
    · simp only [test?, hc, ha, hb]
      rfl
    · intro row
      rw [hnegated]
      rfl

end Comparator

section Lists

variable {items : List Value} {p : Projection} {test : Scalar → Bool}

theorem columnMatches_list_eq (negated : Bool) : columnMatches (.list items) true p negated test =
    ((items.filterMap p.project?).any test != negated) :=
  rfl

theorem columnMatches_scalar_iff {v : Value} {negated : Bool} :
    columnMatches v false p negated test = true ↔
      ∃ s, p.project? v = some s ∧ (test s != negated) = true := by
  cases hv : p.project? v with
  | none => simp [columnMatches, hv]
  | some s => simp [columnMatches, hv]

/-- A list meets a test if one of its elements does so by itself. -/
theorem columnMatches_list : columnMatches (.list items) true p false test = true ↔
    ∃ v ∈ items, columnMatches v false p false test = true := by
  simp only [columnMatches_list_eq, columnMatches_scalar_iff, Bool.bne_false, List.any_eq_true,
    List.mem_filterMap]
  constructor
  · rintro ⟨s, ⟨v, hv, hs⟩, htest⟩
    exact ⟨v, hv, s, hs, htest⟩
  · rintro ⟨v, hv, s, hs, htest⟩
    exact ⟨s, ⟨v, hv, hs⟩, htest⟩

/-- It meets the negated test if all of them do, but for nulls. -/
theorem columnMatches_list_negated
    (hitems : ∀ v ∈ items, v ≠ .null → ∃ s, p.project? v = some s) :
    columnMatches (.list items) true p true test = true ↔
      ∀ v ∈ items, v ≠ .null → columnMatches v false p true test = true := by
  simp only [columnMatches_list_eq, columnMatches_scalar_iff, Bool.bne_true, Bool.not_eq_true',
    List.any_eq_false, List.mem_filterMap]
  constructor
  · intro hall v hv hnull
    obtain ⟨s, hs⟩ := hitems v hv hnull
    exact ⟨s, hs, Bool.eq_false_iff.2 (hall s ⟨v, hv, hs⟩)⟩
  · rintro hall s ⟨v, hv, hs⟩
    have hnull : v ≠ .null := by
      rintro rfl
      cases p <;> cases hs
    obtain ⟨s', hs', htest⟩ := hall v hv hnull
    obtain rfl := Option.some.inj (hs.symm.trans hs')
    exact Bool.eq_false_iff.1 htest

end Lists

theorem FieldType.scalarKind?_of_kind {t : FieldType} {kind : Kind}
    (h : t.kind false = .ok kind) : t.unwrap.scalarKind? = some kind := by
  cases hu : t.unwrap with
  | optional inner => exact absurd hu (unwrap_ne_optional t inner)
  | list | other => simp [FieldType.kind, hu, scalarKind?] at h
  | unit | string | char | number | boolean | dateTime | date | enum =>
    simpa [FieldType.kind, hu, scalarKind?] using h

namespace Target

variable {schema : Schema} {name : String} {index : Nat} {field : Field} {t : FieldType}
  {kind : Kind}

theorem find_of_scalar (hfield : schema.resolve? name = some (index, field))
    (hkind : field.type.kind false = .ok kind) :
    find schema name = .ok ⟨index, field.name, kind, field.type.unwrap, false⟩ := by
  have hscalar := FieldType.scalarKind?_of_kind hkind
  have hlist : field.type.isList = false := by
    cases hl : field.type.isList with
    | false => rfl
    | true =>
      obtain ⟨element, hu⟩ := FieldType.isList_iff.1 hl
      rw [hu] at hscalar
      cases hscalar
  have htype := FieldType.scalarType_of_not_isList hlist
  exact find_eq_ok_iff.2 ⟨index, field, kind, hfield, htype ▸ hscalar, by rw [htype, hlist]⟩

theorem find_of_list (hfield : schema.resolve? name = some (index, field))
    (hlist : field.type.unwrap = .list t) (hkind : t.kind false = .ok kind) :
    find schema name = .ok ⟨index, field.name, kind, t.unwrap, true⟩ := by
  have htype : scalarType field.type = t.unwrap := by
    rw [scalarType, hlist]
  have hmany := FieldType.isList_iff.2 ⟨t, hlist⟩
  exact find_eq_ok_iff.2 ⟨index, field, kind, hfield,
    htype ▸ FieldType.scalarKind?_of_kind hkind, by rw [htype, hmany]⟩

end Target

namespace Condition

variable {c : Condition} {s s' : Schema} {defaultFormat : DateFormat} {i i' : Nat}
  {field scalar : Field} {kind : Kind}

/-- **A list field folds its scalar field.** A condition on a list is bound just if it is bound on a
field of the type of the elements. It holds of a list if one element, as the value of that field,
meets it; if it is negated, all elements have to, but for nulls. Of a null list it never holds. -/
theorem list_field_folds (hfield : s.resolve? c.field = some (i, field))
    (hscalar : s'.resolve? c.field = some (i', scalar))
    (hlist : field.type.unwrap = .list scalar.type) (hkind : scalar.type.kind false = .ok kind)
    (hknown : kind ≠ .null) (hcount : c.values.length = c.operation.arity.least)
    (hnull : ∀ v ∈ c.values, v ≠ .null) :
    ((∃ e, c.bind s defaultFormat = .ok e) ↔ ∃ d, c.bind s' defaultFormat = .ok d) ∧
    ∀ e d, c.bind s defaultFormat = .ok e → c.bind s' defaultFormat = .ok d →
      ∀ alone : Value → Row, (∀ v, Row.value (alone v) i' = v) → ∀ row,
        (∀ items, Row.value row i = .list items →
          (∀ v ∈ items, v = .null ∨ ∃ name j, Value.ofJson name scalar.type j = .ok v) →
          (c.operation.isNegated = false →
            (e.evaluate row = true ↔ ∃ v ∈ items, d.evaluate (alone v) = true)) ∧
          (c.operation.isNegated = true →
            (e.evaluate row = true ↔
              ∀ v ∈ items, v ≠ .null → d.evaluate (alone v) = true))) ∧
        (Row.value row i = .null → e.evaluate row = false) := by
  obtain ⟨k, hk⟩ := FieldType.exists_comparator? (FieldType.scalarKind?_of_kind hkind) hknown
    c.case (c.format.getD defaultFormat)
  simp only [bind_of_find (Target.find_of_list hfield hlist hkind),
    bind_of_find (Target.find_of_scalar hscalar hkind), hk]
  constructor
  · rw [Comparator.exists_bind_iff_test hcount hnull, Comparator.exists_bind_iff_test hcount hnull]
  intro e d he hd alone halone row
  obtain ⟨test, htest, hevaluate⟩ := Comparator.exists_test_of_bind hcount hnull he
  obtain ⟨test', htest', hevaluate'⟩ := Comparator.exists_test_of_bind hcount hnull hd
  obtain rfl := Option.some.inj (htest.symm.trans htest')
  simp only [hevaluate, hevaluate', Target.column, halone]
  constructor
  · intro items hrow hitems
    rw [hrow]
    constructor
    · intro hnegated
      rw [hnegated]
      exact columnMatches_list
    · intro hnegated
      rw [hnegated]
      apply columnMatches_list_negated
      intro v hv hvalue
      obtain rfl | ⟨name, j, hload⟩ := hitems v hv
      · exact absurd rfl hvalue
      · exact (Value.hasType_unwrap_iff.2 (Value.hasType_ofJson hload)).exists_project? hvalue hk _
  · intro hrow
    rw [hrow, columnMatches_null]

/-- Elements that may be null, and a negated range. -/
theorem list_field_folds_marks :
    let s : Schema := ⟨[⟨"Id", .number .i64⟩, ⟨"Marks", .list (.optional (.number .u8))⟩]⟩
    let s' : Schema := ⟨[⟨"marks", .optional (.number .u8)⟩]⟩
    let c : Condition := plain "MARKS" .notBetween [.number (.int 2), .number (.int 5)]
    let items : List Value := [.number (.uint 1), .null, .number (.uint 9)]
    ∃ e d, c.bind s .isoDateTime = .ok e ∧ c.bind s' .isoDateTime = .ok d ∧
      (e.evaluate [.null, .list items] = true ↔
        ∀ v ∈ items, v ≠ .null → d.evaluate [v] = true) := by
  intro s s' c items
  have hfield : s.resolve? c.field =
      some (1, ⟨"Marks", .list (.optional (.number .u8))⟩) := by
    simp only [s, c]
    rfl
  have hscalar : s'.resolve? c.field = some (0, ⟨"marks", .optional (.number .u8)⟩) := by
    simp only [s', c]
    rfl
  have hnull : ∀ v ∈ c.values, v ≠ .null := by
    simp [c, plain]
  have hload : ∀ v ∈ items, v = .null ∨
      ∃ name j, Value.ofJson name (.optional (.number .u8)) j = .ok v := by
    intro v hv
    simp only [items] at hv
    rcases hv with _ | ⟨_, _ | ⟨_, _ | ⟨_, ⟨⟩⟩⟩⟩
    · exact .inr ⟨"", .number "1", rfl⟩
    · exact .inl rfl
    · exact .inr ⟨"", .number "9", rfl⟩
  obtain ⟨hbinds, hfold⟩ := @list_field_folds c s s' .isoDateTime 1 0 _ _ .number hfield hscalar
    rfl rfl (by decide) rfl hnull
  obtain ⟨e, he⟩ : ∃ e, c.bind s .isoDateTime = .ok e := by
    simp only [s, c]
    exact ⟨_, rfl⟩
  obtain ⟨d, hd⟩ := hbinds.1 ⟨e, he⟩
  obtain ⟨hitems, -⟩ := hfold e d he hd (fun v => [v]) (fun _ => rfl) [.null, .list items]
  exact ⟨e, d, he, hd, (hitems items rfl hload).2 rfl⟩

end Condition

end RecordSearch
