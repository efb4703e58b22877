import RecordSearch.Proofs.Loading
import RecordSearch.Proofs.NullSafety

/-!
Operations and their negations. A loaded field that is not null always has something to compare,
so of an operation and its negation with the same operands exactly one holds of it.

* `Operation.Opposite`: the pairs of an operation and its negation;
* `Value.HasType.isComparable`: a loaded value is compared, if it is not null;
* `Comparator.bind_of_opposite`: both of a pair take the same operands and make opposite tests;
* `Condition.exactly_one_of_opposite`: on a loaded row one of a pair is the negation of the other,
  unless the field is null.
-/

namespace RecordSearch

/-- As few operands as an operation takes. -/
def Arity.least : Arity → Nat
  | exactly count => count
  | atLeast count => count

/-- The second operation is the negation of the first. -/
inductive Operation.Opposite : Operation → Operation → Prop where
  | equal : Opposite .equal .notEqual
  | contains : Opposite .contains .notContains
  | startsWith : Opposite .startsWith .notStartsWith
  | endsWith : Opposite .endsWith .notEndsWith
  | between : Opposite .between .notBetween

namespace Operation.Opposite

variable {o n : Operation} (k : Comparator)

theorem comparison? (h : o.Opposite n) :
    (∃ c, o.comparison? = some (c, false) ∧ n.comparison? = some (c, true)) ∨
      o = .between ∧ n = .notBetween := by
  cases h with
  | between => exact .inr ⟨rfl, rfl⟩
  | _ => exact .inl ⟨_, rfl, rfl⟩

theorem supports (h : o.Opposite n) : k.supports n = k.supports o := by
  cases h <;> cases k <;> rfl

theorem projection (h : o.Opposite n) : k.projection n = k.projection o := by
  cases h <;> cases k <;> rfl

theorem operand? (h : o.Opposite n) (v : Value) : k.operand? n v = k.operand? o v := by
  cases h <;> cases k <;> cases v <;> rfl

end Operation.Opposite

/-- Two expressions that ask the same of a column, one of them negated. -/
inductive Expression.Opposite (column : Column) (p : Projection) : Expression → Expression → Prop
  | compare (comparison : Comparison) (operand : Scalar) :
    Opposite column p (.compare column p comparison operand false)
      (.compare column p comparison operand true)
  | between (low high : Scalar) :
    Opposite column p (.between column p low high false) (.between column p low high true)

/-- There is something to compare: a list, or a value that projects. -/
def Value.IsComparable (many : Bool) (p : Projection) (v : Value) : Prop :=
  if many then ∃ items, v = .list items else ∃ s, p.project? v = some s

theorem columnMatches_negated {many : Bool} {p : Projection} {v : Value}
    (h : v.IsComparable many p) (test : Scalar → Bool) :
    columnMatches v many p true test = !columnMatches v many p false test := by
  cases many with
  | true =>
    obtain ⟨items, rfl⟩ := h
    simp [columnMatches]
  | false =>
    obtain ⟨s, hs⟩ := h
    simp [columnMatches, hs]

namespace Expression.Opposite

variable {column : Column} {p : Projection} {e d : Expression} {row : Row}

theorem evaluate_of_comparable (h : Opposite column p e d)
    (hrow : (Row.value row column.index).IsComparable column.many p) :
    d.evaluate row = !e.evaluate row := by
  cases h <;> exact columnMatches_negated hrow _

theorem evaluate_of_null (h : Opposite column p e d) (hrow : Row.value row column.index = .null) :
    e.evaluate row = false ∧ d.evaluate row = false := by
  cases h <;> simp only [evaluate, hrow, columnMatches_null, and_self]

end Expression.Opposite

namespace Value

variable {t : FieldType} {v : Value} {k : Comparator} {mode : CaseMode} {format : DateFormat}

/-- The values of a scalar type are those that its rules compare. -/
theorem HasType.exists_project? (h : HasType t v) (hv : v ≠ .null)
    (hk : t.comparator? mode format = some k) (o : Operation) :
    ∃ s, (k.projection o).project? v = some s := by
  cases h with
  | null => exact absurd rfl hv
  | optional | list | other => cases hk
  | number =>
    obtain rfl := Option.some.inj hk
    rw [Comparator.projection]
    split <;> exact ⟨_, rfl⟩
  | string | char | boolean | dateTime | date | enum =>
    obtain rfl := Option.some.inj hk
    exact ⟨_, rfl⟩

theorem HasType.isComparable (h : HasType t v) (hv : v ≠ .null)
    (hk : (Target.scalarType t).comparator? mode format = some k) (o : Operation) :
    v.IsComparable t.isList (k.projection o) := by
  cases hl : t.isList with
  | true =>
    obtain ⟨element, hu⟩ := FieldType.isList_iff.1 hl
    rw [← hasType_unwrap_iff, hu] at h
    cases h with
    | null => exact absurd rfl hv
    | list => exact ⟨_, rfl⟩
  | false =>
    rw [FieldType.scalarType_of_not_isList hl] at hk
    exact (hasType_unwrap_iff.2 h).exists_project? hv hk o

end Value

/-- With as few operands as it takes, none of them null, a condition and its opposite are bound
together, and to opposite expressions. -/
theorem Comparator.bind_of_opposite {o n : Operation} (h : o.Opposite n) {k : Comparator}
    {column : Column} {values : List Value} (hcount : values.length = o.arity.least)
    (hnull : ∀ v ∈ values, v ≠ .null) :
    ((∃ e, k.bind column o values = .ok e) ↔ ∃ d, k.bind column n values = .ok d) ∧
      ∀ e d, k.bind column o values = .ok e → k.bind column n values = .ok d →
        Expression.Opposite column (k.projection o) e d := by
  rcases h.comparison? with ⟨c, ho, hn⟩ | ⟨rfl, rfl⟩
  · obtain ⟨v, rfl⟩ : ∃ v, values = [v] := by
      rw [← List.length_eq_one_iff, hcount]
      cases h with
      | between => cases ho
      | _ => rfl
    have hv : v ≠ .null := hnull v List.mem_cons_self
    simp only [bind_one_ok_iff ho hv, bind_one_ok_iff hn hv, h.supports, h.projection, h.operand?]
    constructor
    · constructor
      · rintro ⟨_, hs, s, hop, -⟩
        exact ⟨_, hs, s, hop, rfl⟩
      · rintro ⟨_, hs, s, hop, -⟩
        exact ⟨_, hs, s, hop, rfl⟩
    · rintro _ _ ⟨-, s, hop, rfl⟩ ⟨-, s', hop', rfl⟩
      obtain rfl := Option.some.inj (hop.symm.trans hop')
      exact .compare c s
  · obtain ⟨low, high, rfl⟩ :=
      Operation.eq_pair_of_accepts (o := .between) rfl (beq_iff_eq.2 hcount)
    have hlow : low ≠ .null := hnull low (by simp)
    have hhigh : high ≠ .null := hnull high (by simp)
    have ho : Operation.between.comparison? = none := rfl
    have hn : Operation.notBetween.comparison? = none := rfl
    simp only [bind_two_ok_iff ho hlow hhigh, bind_two_ok_iff hn hlow hhigh, h.supports,
      h.projection, h.operand?]
    constructor
    · constructor
      · rintro ⟨_, hs, a, ha, b, hb, -⟩
        exact ⟨_, hs, a, ha, b, hb, rfl⟩
      · rintro ⟨_, hs, a, ha, b, hb, -⟩
        exact ⟨_, hs, a, ha, b, hb, rfl⟩
    · rintro _ _ ⟨-, a, ha, b, hb, rfl⟩ ⟨-, a', ha', b', hb', rfl⟩
      obtain rfl := Option.some.inj (ha.symm.trans ha')
      obtain rfl := Option.some.inj (hb.symm.trans hb')
      exact .between a b

namespace Condition

variable {c : Condition} {n : Operation} {schema : Schema} {defaultFormat : DateFormat}
  {t : Target} {e d : Expression}

/-- The condition with another operation in the place of its own. -/
def withOperation (c : Condition) (o : Operation) : Condition := { c with operation := o }

theorem bind_withOperation_of_find (h : Target.find schema c.field = .ok t) (o : Operation) :
    (c.withOperation o).bind schema defaultFormat =
      match t.type.comparator? c.case (c.format.getD defaultFormat) with
      | some k => k.bind t.column o c.values
      | none => bindNull t.column o c.values :=
  bind_of_find h

theorem exists_comparator?_of_find (h : Target.find schema c.field = .ok t)
    (hkind : t.kind ≠ .null) (defaultFormat : DateFormat) :
    ∃ k, t.type.comparator? c.case (c.format.getD defaultFormat) = some k :=
  FieldType.exists_comparator? (Target.scalarKind?_type_of_find h) hkind _ _

theorem binds_iff_of_opposite (h : c.operation.Opposite n)
    (hcount : c.values.length = c.operation.arity.least) (hnull : ∀ v ∈ c.values, v ≠ .null)
    (hkind : ∀ t, Target.find schema c.field = .ok t → t.kind ≠ .null) :
    (∃ e, c.bind schema defaultFormat = .ok e) ↔
      ∃ d, (c.withOperation n).bind schema defaultFormat = .ok d := by
  cases ht : Target.find schema c.field with
  | error err =>
    rw [bind_of_find_error ht, bind_of_find_error (c := c.withOperation n) ht]
  | ok t =>
    obtain ⟨k, hk⟩ := exists_comparator?_of_find ht (hkind t ht) defaultFormat
    simp only [bind_of_find ht, bind_withOperation_of_find ht, hk]
    exact (Comparator.bind_of_opposite h hcount hnull).1

/-- What is loaded into the column of a field is a value of the field's type. -/
theorem exists_hasType_of_find {j : Json} {row : Row} (hrow : Row.ofJson schema j = .ok row)
    (h : Target.find schema c.field = .ok t) :
    ∃ type, (Row.value row t.index).HasType type ∧ t.type = Target.scalarType type ∧
      t.many = type.isList := by
  obtain ⟨index, field, kind, hresolve, -, rfl⟩ := Target.find_eq_ok_iff.1 h
  exact ⟨field.type, Row.hasType_value hrow (Schema.getElem?_of_resolve? hresolve), rfl, rfl⟩

/-- **Negations are complements.** A condition and its opposite are bound together. Of a loaded row
exactly one of them holds if the field is not null, and neither if it is. -/
theorem exactly_one_of_opposite (h : c.operation.Opposite n)
    (hcount : c.values.length = c.operation.arity.least) (hnull : ∀ v ∈ c.values, v ≠ .null)
    (hkind : ∀ t, Target.find schema c.field = .ok t → t.kind ≠ .null)
    {j : Json} {row : Row} (hrow : Row.ofJson schema j = .ok row) :
    ((∃ e, c.bind schema defaultFormat = .ok e) ↔
      ∃ d, (c.withOperation n).bind schema defaultFormat = .ok d) ∧
    ∀ t e d, Target.find schema c.field = .ok t → c.bind schema defaultFormat = .ok e →
      (c.withOperation n).bind schema defaultFormat = .ok d →
      (Row.value row t.index ≠ .null → d.evaluate row = !e.evaluate row) ∧
      (Row.value row t.index = .null → e.evaluate row = false ∧ d.evaluate row = false) := by
  refine ⟨binds_iff_of_opposite h hcount hnull hkind, ?_⟩
  intro t e d ht he hd
  obtain ⟨k, hk⟩ := exists_comparator?_of_find ht (hkind t ht) defaultFormat
  simp only [bind_of_find ht, hk] at he
  simp only [bind_withOperation_of_find ht, hk] at hd
  have hopp := (Comparator.bind_of_opposite h hcount hnull).2 e d he hd
  constructor
  · intro hv
    obtain ⟨type, htype, hscalar, hmany⟩ := exists_hasType_of_find hrow ht
    rw [hscalar] at hk
    apply hopp.evaluate_of_comparable
    rw [Target.column, hmany]
    exact htype.isComparable hv hk c.operation
  · exact hopp.evaluate_of_null

/-- Of a list with a null in it the rule holds too. -/
theorem exactly_one_of_opposite_list :
    let schema : Schema := ⟨[⟨"Id", .number .i32⟩, ⟨"Tags", .optional (.list .string)⟩]⟩
    let j : Json := .object [("id", .number "7"), ("tags", .array [.string "Rust", .null])]
    let c : Condition := .plain "TAGS" .contains [.text "us"]
    ∃ row, Row.ofJson schema j = .ok row ∧
      ∃ t, Target.find schema c.field = .ok t ∧ Row.value row t.index ≠ .null ∧
      ∃ e, c.bind schema .isoDateTime = .ok e ∧
      ∃ d, (c.withOperation .notContains).bind schema .isoDateTime = .ok d ∧
        d.evaluate row = !e.evaluate row := by
  intro schema j c
  have hrow : Row.ofJson schema j =
      .ok [.number (.int 7), .list [.text "Rust", .null]] := by
    simp only [schema, j]
    rfl
  have hfind : Target.find schema "TAGS" = .ok ⟨1, "Tags", .string, .string, true⟩ := by
    simp only [schema]
    rfl
  have hkind : ∀ t, Target.find schema c.field = .ok t → t.kind ≠ .null := by
    intro t ht
    obtain rfl := Except.ok.inj (hfind.symm.trans ht)
    decide
  have hnull : ∀ v ∈ c.values, v ≠ .null := by
    rintro v (_ | ⟨_, ⟨⟩⟩) ⟨⟩
  have hvalue : Row.value [.number (.int 7), .list [.text "Rust", .null]] 1 ≠ .null := by
    rintro ⟨⟩
  obtain ⟨hbinds, hone⟩ := exactly_one_of_opposite .contains rfl hnull hkind hrow
  obtain ⟨e, he⟩ : ∃ e, c.bind schema .isoDateTime = .ok e := by
    simp only [schema, c]
    exact ⟨_, rfl⟩
  obtain ⟨d, hd⟩ := hbinds.1 ⟨e, he⟩
  exact ⟨_, hrow, _, hfind, hvalue, e, he, d, hd, (hone _ e d hfind he hd).1 hvalue⟩

end Condition

end RecordSearch
