import RecordSearch.Plan.Search
import RecordSearch.Proofs.Result

/-!
How a condition finds its rules. The type of the field alone decides, freed of marks for null and
of one list, and a type that has a kind has all that the rules of that kind ask for.

* `Target.find_eq`: what is found for a name;
* `Target.comparator?_of_find`: the rules of a field are those of its scalar type;
* `Condition.bind_of_find`: what is left of binding once the field is known.
-/

namespace RecordSearch

namespace FieldType

/-- The rules of comparison for a scalar type. Of the types with a kind only null has none. -/
def comparator? (mode : CaseMode) (format : DateFormat) : FieldType → Option Comparator
  | string | char => some (.string mode)
  | number width => some (.number width)
  | boolean => some .boolean
  | dateTime | date => some (.date format)
  | enum type => some (.enumerated type)
  | unit | optional _ | list _ | other _ => none

theorem unwrap_ne_optional (t inner : FieldType) : t.unwrap ≠ optional inner := by
  induction t with
  | optional t ih => exact ih
  | unit | string | char | number | boolean | dateTime | date | enum | list | other => simp [unwrap]

theorem scalarType_ne_optional (t inner : FieldType) : Target.scalarType t ≠ optional inner := by
  rw [Target.scalarType]
  split <;> exact unwrap_ne_optional _ inner

/-- A type has no kind if it is unknown or a list within the list that is left out of account. -/
theorem scalarKind?_eq_none_iff {t : FieldType} :
    (Target.scalarType t).scalarKind? = none ↔
      (∃ text, Target.scalarType t = other text) ∨ ∃ element, Target.scalarType t = list element := by
  cases h : Target.scalarType t with
  | optional inner => exact absurd h (scalarType_ne_optional t inner)
  | unit | string | char | number | boolean | dateTime | date | enum | list | other =>
    simp [scalarKind?]

theorem scalarKind?_of_comparator? {mode : CaseMode} {format : DateFormat} {t : FieldType}
    {k : Comparator} (h : t.comparator? mode format = some k) : t.scalarKind? = some k.kind := by
  cases t <;> simp only [comparator?, Option.some.injEq, reduceCtorEq] at h <;> subst h <;> rfl

theorem exists_comparator? {t : FieldType} {kind : Kind} (h : t.scalarKind? = some kind)
    (hkind : kind ≠ .null) (mode : CaseMode) (format : DateFormat) :
    ∃ k, t.comparator? mode format = some k := by
  cases t with
  | unit => exact absurd (Option.some.inj h).symm hkind
  | optional | list | other => cases h
  | string | char | number | boolean | dateTime | date | enum => exact ⟨_, rfl⟩

theorem comparator?_of_kind_null {t : FieldType} (h : t.scalarKind? = some .null)
    (mode : CaseMode) (format : DateFormat) : t.comparator? mode format = none := by
  cases t <;> first | rfl | cases h

theorem isList_iff {t : FieldType} : t.isList = true ↔ ∃ element, t.unwrap = list element := by
  cases h : t.unwrap <;> simp [isList, h]

theorem scalarType_of_not_isList {t : FieldType} (h : t.isList = false) :
    Target.scalarType t = t.unwrap := by
  rw [Target.scalarType]
  split
  · next element hu => cases h.symm.trans (isList_iff.2 ⟨element, hu⟩)
  · rfl

/-- A field that is a list is classified by its elements, and any other by itself. -/
theorem kind_isList (t : FieldType) : t.kind t.isList =
    match (Target.scalarType t).scalarKind? with
    | some kind => .ok kind
    | none => .error (.unknownType (Target.scalarType t).text) := by
  cases h : t.unwrap with
  | list element =>
    cases hk : element.unwrap.scalarKind? <;>
      simp only [kind, isList, Target.scalarType, h, hk, if_true]
  | _ => simp only [kind, Target.scalarType, h, scalarKind?]

end FieldType

namespace Target

variable {schema : Schema} {name : String} {mode : CaseMode} {format : DateFormat}

theorem find_eq (schema : Schema) (name : String) : find schema name =
    match schema.resolve? name with
    | none => .error (.unknownField name)
    | some (index, field) =>
      match (scalarType field.type).scalarKind? with
      | none => .error (.unknownType (scalarType field.type).text)
      | some kind => .ok ⟨index, field.name, kind, scalarType field.type, field.type.isList⟩ := by
  rw [find]
  cases schema.resolve? name with
  | none => rfl
  | some p =>
    obtain ⟨index, field⟩ := p
    simp only [FieldType.kind_isList]
    cases (scalarType field.type).scalarKind? <;> rfl

theorem find_eq_ok_iff {t : Target} : find schema name = .ok t ↔
    ∃ index field kind, schema.resolve? name = some (index, field) ∧
      (scalarType field.type).scalarKind? = some kind ∧
      ⟨index, field.name, kind, scalarType field.type, field.type.isList⟩ = t := by
  constructor
  · intro h
    rw [find_eq] at h
    cases hr : schema.resolve? name with
    | none => simp [hr] at h
    | some p =>
      obtain ⟨index, field⟩ := p
      cases hk : (scalarType field.type).scalarKind? with
      | none => simp [hr, hk] at h
      | some kind =>
        simp only [hr, hk, Except.ok.injEq] at h
        exact ⟨index, field, kind, rfl, hk, h⟩
  · rintro ⟨index, field, kind, hr, hk, rfl⟩
    simp only [find_eq, hr, hk]

theorem scalarKind?_type_of_find {t : Target} (h : find schema name = .ok t) :
    t.type.scalarKind? = some t.kind := by
  obtain ⟨index, field, kind, -, hkind, rfl⟩ := find_eq_ok_iff.1 h
  exact hkind

/-- What is found has the width or the members that its kind asks for. -/
theorem comparator?_of_find {t : Target} (h : find schema name = .ok t) :
    t.comparator? mode format = .ok (t.type.comparator? mode format) := by
  have hkind := scalarKind?_type_of_find h
  obtain ⟨index, name, kind, type, many⟩ := t
  cases type <;> simp only [FieldType.scalarKind?, Option.some.injEq, reduceCtorEq] at hkind <;>
    subst hkind <;> rfl

end Target

theorem Condition.bind_of_find_error {c : Condition} {schema : Schema}
    {defaultFormat : DateFormat} {err : QueryError} (h : Target.find schema c.field = .error err) :
    c.bind schema defaultFormat = .error err := by
  rw [Condition.bind, h]
  rfl

theorem Condition.bind_of_find {c : Condition} {schema : Schema} {defaultFormat : DateFormat}
    {t : Target} (h : Target.find schema c.field = .ok t) :
    c.bind schema defaultFormat =
      match t.type.comparator? c.case (c.format.getD defaultFormat) with
      | some k => k.bind t.column c.operation c.values
      | none => bindNull t.column c.operation c.values := by
  rw [Condition.bind, h]
  change (t.comparator? c.case (c.format.getD defaultFormat) >>= _) = _
  rw [Target.comparator?_of_find h]
  cases t.type.comparator? c.case (c.format.getD defaultFormat) <;> rfl

end RecordSearch
