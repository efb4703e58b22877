import RecordSearch.Proofs.PlannedExpressions

/-!
Loaded rows against the conditions that are bound over the same schema. Reading a record and
binding a condition go by the declared type each on its own, and they agree on what the type's
values are, so no condition fails for the sort of its operands.

* `Row.length_of_ofJson`: a loaded row has one value for each field;
* `Value.HasType.meets`: a value of a type can be compared with the operands of the type;
* `Row.meets_of_within`: so can the loaded value of the column that a comparison reads.
-/

namespace RecordSearch

/-- The projection makes of the value a scalar of the sort, unless it is null. -/
def Value.Meets (v : Value) (p : Projection) (sort : ScalarSort) : Prop :=
  v = .null ∨ ∃ s, p.project? v = some s ∧ s.sort = sort

/-- Of a column with lists the elements are compared. -/
def Value.MeetsColumn (v : Value) (many : Bool) (p : Projection) (sort : ScalarSort) : Prop :=
  if many then v = .null ∨ ∃ items, v = .list items ∧ ∀ item ∈ items, item.Meets p sort
  else v.Meets p sort

namespace Value.HasType

variable {textual : Bool} {t : FieldType} {p : Projection} {s : Scalar} {v : Value}

theorem meets (h : HasType t v) (hs : s.IsOperand textual t p) : v.Meets p s.sort := by
  by_cases hv : v = .null
  · exact .inl hv
  have hproject : ∃ x, p.project? v = some x := by
    cases h with
    | null => exact absurd rfl hv
    | string | char | number | boolean | dateTime | date | enum => cases hs <;> exact ⟨_, rfl⟩
    | optional | list | other => cases hs
  obtain ⟨x, hx⟩ := hproject
  exact .inr ⟨x, hx, (Projection.sort_of_project? hx).trans hs.sort_eq.symm⟩

theorem meetsColumn (h : HasType t v) (hs : s.IsOperand textual (Target.scalarType t) p) :
    v.MeetsColumn t.isList p s.sort := by
  have hunwrap := hasType_unwrap_iff.2 h
  cases hl : t.isList with
  | false =>
    rw [FieldType.scalarType_of_not_isList hl] at hs
    exact hunwrap.meets hs
  | true =>
    obtain ⟨element, hu⟩ := FieldType.isList_iff.1 hl
    rw [Target.scalarType, hu] at hs
    rw [hu] at hunwrap
    cases hunwrap with
    | null => exact .inl rfl
    | list hitems =>
      refine .inr ⟨_, rfl, ?_⟩
      intro item hitem
      exact (hasType_unwrap_iff.2 (hitems item hitem)).meets hs

end Value.HasType

namespace Row

variable {schema : Schema} {j : Json} {row : Row} {column : Column}

theorem length_of_ofJson (h : Row.ofJson schema j = .ok row) :
    row.length = schema.fields.length := by
  cases j with
  | object fields => exact length_of_mapM h
  | null | bool | number | string | array => cases h

/-- The column of a field is in the row, with a value of the field's type. -/
theorem exists_hasType_of_denotes {f : Field} (h : Row.ofJson schema j = .ok row)
    (hc : column.Denotes schema f) :
    ∃ v, row[column.index]? = some v ∧ v.HasType f.type := by
  have hindex : column.index < row.length := by
    rw [length_of_ofJson h]
    exact (List.getElem?_eq_some_iff.1 hc.getElem?_eq).1
  have hvalue := Row.hasType_value h hc.getElem?_eq
  rw [Row.value, List.getElem?_eq_getElem hindex] at hvalue
  exact ⟨_, List.getElem?_eq_getElem hindex, hvalue⟩

end Row

namespace Expression

/-- The column of a comparison or a range, its projection, and the scalars that it is compared
with. -/
def comparands? : Expression → Option (Column × Projection × List Scalar)
  | compare c p _ operand _ => some (c, p, [operand])
  | between c p low high _ => some (c, p, [low, high])
  | literal _ | isNull _ | isNotNull _ | conjunction _ | disjunction _ => none

variable {schema : Schema} {e : Expression} {column : Column} {p : Projection}
  {operands : List Scalar}

theorem IsPlanned.exists_isOperand (h : IsPlanned schema e)
    (he : e.comparands? = some (column, p, operands)) :
    ∃ f, column.Denotes schema f ∧ ∀ s ∈ operands, ∃ textual,
      s.IsOperand textual (Target.scalarType f.type) p := by
  cases h with
  | compare hc hs =>
    cases he
    exact ⟨_, hc, List.forall_mem_singleton.2 ⟨_, hs⟩⟩
  | between _ hc hlow hhigh =>
    cases he
    refine ⟨_, hc, ?_⟩
    rintro s (_ | ⟨_, _ | ⟨_, ⟨⟩⟩⟩)
    · exact ⟨_, hlow⟩
    · exact ⟨_, hhigh⟩
  | literal | isNull | isNotNull | conjunction | disjunction => cases he

end Expression

namespace Row

variable {schema : Schema} {j : Json} {row : Row}

/-- **No sort is missed.** A loaded row has one value for each field. Wherever a bound condition
compares a column, the loaded value is null or makes a scalar of the sort of the operands, and so
does each element of a list. -/
theorem meets_of_within (hrow : Row.ofJson schema j = .ok row) :
    row.length = schema.fields.length ∧
      ∀ (c : Condition) (format : DateFormat) (e : Expression), c.bind schema format = .ok e →
        ∀ d : Expression, d.Within e → ∀ column p operands,
          d.comparands? = some (column, p, operands) →
          ∃ v, row[column.index]? = some v ∧
            ∀ s ∈ operands, v.MeetsColumn column.many p s.sort := by
  refine ⟨length_of_ofJson hrow, ?_⟩
  intro c format e he d hd column p operands hoperands
  have hplanned := (Expression.isPlanned_of_bind he).within hd
  obtain ⟨f, hc, hs⟩ := hplanned.exists_isOperand hoperands
  obtain ⟨v, hv, htype⟩ := exists_hasType_of_denotes hrow hc
  refine ⟨v, hv, ?_⟩
  intro s hmem
  obtain ⟨textual, hoperand⟩ := hs s hmem
  rw [hc.many_eq]
  exact htype.meetsColumn hoperand

/-- A number out of a list with a null in it is compared with both operands. -/
theorem meets_of_within_list :
    let schema : Schema := ⟨[⟨"Name", .char⟩, ⟨"Rates", .optional (.list (.number .i32))⟩]⟩
    let j : Json := .object [("rates", .array [.number "7", .null])]
    let c : Condition := .plain "rates" .lessThan [.number (.int 9), .number (.int 8)]
    let d : Expression := .compare ⟨1, "Rates", true⟩ .number .lessThan (.number (.int 8)) false
    ∃ row, Row.ofJson schema j = .ok row ∧ row.length = 2 ∧
      ∃ e, c.bind schema .isoDateTime = .ok e ∧ d.Within e ∧
        ∃ v, row[1]? = some v ∧ v.MeetsColumn true .number .number := by
  intro schema j c d
  have hrow : Row.ofJson schema j = .ok [.null, .list [.number (.int 7), .null]] := by
    simp only [schema, j]
    rfl
  obtain ⟨e, he, hd⟩ : ∃ e, c.bind schema .isoDateTime = .ok e ∧ d.Within e := by
    simp only [schema, c]
    exact ⟨_, rfl, .conjunction (.tail _ (.head _)) (.refl _)⟩
  obtain ⟨hlen, hmeets⟩ := meets_of_within hrow
  obtain ⟨v, hv, hall⟩ := hmeets c .isoDateTime e he d hd _ _ _ rfl
  exact ⟨_, hrow, hlen, e, he, hd, v, hv, hall _ List.mem_cons_self⟩

end Row

end RecordSearch
