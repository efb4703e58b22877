import RecordSearch.Proofs.ClauseText
import RecordSearch.Proofs.Complements
import RecordSearch.Proofs.Ranges

/-!
The order of loaded fields is total. Whatever a field that is not null holds compares with whatever
operands the field takes, so the six operations of the order all come down to one ordering of the
two. Floating-point fields are left out: what is no number compares with nothing.

* `Operation.Trichotomy`: how the operations of the order go together;
* `Value.HasType.exists_compare?`: loaded values compare with bound operands;
* `Condition.trichotomy`: on a loaded row exactly one of less, equal and greater holds.
-/

namespace RecordSearch

namespace Operation

/-- The operations that ask for the order of field and operand. -/
def orderings : List Operation :=
  [equal, notEqual, lessThan, lessThanOrEqual, greaterThan, greaterThanOrEqual]

theorem comparison?_of_mem_orderings {o : Operation} (h : o ∈ orderings) :
    ∃ comparison negated, o.comparison? = some (comparison, negated) ∧
      comparison.isTextual = false := by
  cases o with
  | equal | notEqual | lessThan | lessThanOrEqual | greaterThan | greaterThanOrEqual =>
    exact ⟨_, _, rfl, rfl⟩
  | _ => simp [orderings] at h

/-- One of less, equal and greater holds, and the other operations are made of these. -/
structure Trichotomy (holds : Operation → Bool) : Prop where
  exactly_one : [lessThan, equal, greaterThan].countP holds = 1
  lessThanOrEqual : holds lessThanOrEqual = (holds lessThan || holds equal)
  greaterThanOrEqual : holds greaterThanOrEqual = (holds greaterThan || holds equal)
  notEqual : holds notEqual = (holds lessThan || holds greaterThan)

/-- All six operations look at one ordering. -/
theorem Trichotomy.of_ordering {holds : Operation → Bool} (order : Ordering)
    (h : ∀ o ∈ orderings, ∀ comparison negated, o.comparison? = some (comparison, negated) →
      holds o = (comparison.admits order != negated)) : Trichotomy holds := by
  have hequal := h .equal (by decide) _ _ rfl
  have hnotEqual := h .notEqual (by decide) _ _ rfl
  have hless := h .lessThan (by decide) _ _ rfl
  have hlessOrEqual := h .lessThanOrEqual (by decide) _ _ rfl
  have hgreater := h .greaterThan (by decide) _ _ rfl
  have hgreaterOrEqual := h .greaterThanOrEqual (by decide) _ _ rfl
  constructor
  · simp only [List.countP_cons, List.countP_nil, hless, hequal, hgreater]
    cases order <;> rfl
  · rw [hlessOrEqual, hless, hequal]
    cases order <;> rfl
  · rw [hgreaterOrEqual, hgreater, hequal]
    cases order <;> rfl
  · rw [hnotEqual, hless, hgreater]
    cases order <;> rfl

end Operation

/-- Numbers of one representation compare, unless they are floating-point numbers. -/
theorem Number.exists_compare? {m n : Number} (h : m.representation = n.representation)
    (hfloat : n.representation ≠ .float) : ∃ order, m.compare? n = some order := by
  cases n with
  | float => exact absurd rfl hfloat
  | int =>
    cases m with
    | int => exact ⟨_, rfl⟩
    | uint | float | decimal => cases h
  | uint =>
    cases m with
    | uint => exact ⟨_, rfl⟩
    | int | float | decimal => cases h
  | decimal =>
    cases m with
    | decimal => exact ⟨_, rfl⟩
    | int | uint | float => cases h

namespace Value.HasType

variable {t : FieldType} {v : Value} {kind : Kind} {p : Projection} {b : Scalar}

/-- A field of nothing but null has no other values. -/
theorem kind_ne_null (h : HasType t v) (hv : v ≠ .null) (hkind : t.scalarKind? = some kind) :
    kind ≠ .null := by
  rintro rfl
  cases h with
  | null => exact hv rfl
  | _ => cases hkind

/-- What is loaded for a scalar type compares with the operands of the type. -/
theorem exists_compare? (h : HasType t v) (hv : v ≠ .null)
    (hfloat : ∀ width, t = .number width → width.representation ≠ .float)
    (hb : b.IsOperand false t p) :
    ∃ s order, p.project? v = some s ∧ s.compare? b = some order := by
  cases h with
  | null => exact absurd rfl hv
  | optional | list | other => cases hb
  | @number width _ n hn =>
    cases hb with
    | digits _ _ htextual => cases htextual
    | number _ hm =>
      have hwidth := Width.representation_of_coerce? hm
      obtain ⟨order, horder⟩ := Number.exists_compare?
        ((Width.representation_of_coerce? hn).trans hwidth.symm) (hwidth ▸ hfloat width rfl)
      exact ⟨.number n, order, rfl, horder⟩
  | string | char | boolean | dateTime | date | enum =>
    cases hb
    exact ⟨_, _, rfl, rfl⟩

end Value.HasType

/-- A comparison of a scalar column is decided by the ordering of what it compares. -/
theorem Expression.evaluate_compare_of_order {column : Column} {p : Projection}
    {comparison : Comparison} {s b : Scalar} {negated : Bool} {row : Row} {order : Ordering}
    (hmany : column.many = false) (htext : comparison.isTextual = false)
    (hproject : p.project? (Row.value row column.index) = some s)
    (horder : s.compare? b = some order) :
    (compare column p comparison b negated).evaluate row =
      (comparison.admits order != negated) := by
  simp only [evaluate, columnMatches, hmany, hproject, Scalar.satisfies, htext,
    Bool.false_eq_true, if_false, horder, Option.any_some]

theorem Comparator.supports_of_lessThan {k : Comparator} (h : k.supports .lessThan = true)
    (o : Operation) : k.supports o = true := by
  cases k with
  | string | number | date => rfl
  | boolean | enumerated => cases h

namespace Condition

variable {c : Condition} {schema : Schema} {defaultFormat : DateFormat} {t : Target} {j : Json}
  {row : Row} {x : Value}

/-- Into a scalar column values of the found type are loaded. -/
theorem hasType_of_find (hrow : Row.ofJson schema j = .ok row)
    (ht : Target.find schema c.field = .ok t) (hmany : t.many = false) :
    (Row.value row t.index).HasType t.type := by
  obtain ⟨type, htype, hscalar, hlist⟩ := exists_hasType_of_find hrow ht
  rw [hmany] at hlist
  rw [hscalar, FieldType.scalarType_of_not_isList hlist.symm]
  exact Value.hasType_unwrap_iff.2 htype

/-- Under one ordering of field and operand all six operations are bound and decided. -/
theorem exists_ordering (hrow : Row.ofJson schema j = .ok row)
    (ht : Target.find schema c.field = .ok t) (hmany : t.many = false)
    (hfloat : ∀ width, t.type = .number width → width.representation ≠ .float)
    (hvalue : Row.value row t.index ≠ .null) (hx : x ≠ .null)
    (hless : ∃ e, (c.asking .lessThan [x]).bind schema defaultFormat = .ok e) :
    ∃ order, ∀ o ∈ Operation.orderings, ∀ comparison negated,
      o.comparison? = some (comparison, negated) →
      ∃ e, (c.asking o [x]).bind schema defaultFormat = .ok e ∧
        e.evaluate row = (comparison.admits order != negated) := by
  have htype := hasType_of_find hrow ht hmany
  have hkind := htype.kind_ne_null hvalue (Target.scalarKind?_type_of_find ht)
  obtain ⟨k, hk⟩ := exists_comparator?_of_find ht hkind defaultFormat
  simp only [bind_asking_of_find ht, hk] at hless ⊢
  obtain ⟨_, hbind⟩ := hless
  obtain ⟨hsupports, b, hb, -⟩ := (Comparator.bind_one_ok_iff rfl hx).1 hbind
  have hoperand : b.IsOperand false t.type (k.projection .lessThan) :=
    Comparator.isOperand_of_operand? hk hsupports hb
  obtain ⟨s, order, hs, horder⟩ := htype.exists_compare? hvalue hfloat hoperand
  refine ⟨order, ?_⟩
  intro o ho comparison negated hc
  obtain ⟨comparison', negated', hc', htext⟩ := Operation.comparison?_of_mem_orderings ho
  obtain ⟨rfl, rfl⟩ := Prod.mk.inj (Option.some.inj (hc.symm.trans hc'))
  have ho : Operation.lessThan.isTextual = o.isTextual := by
    rw [Operation.isTextual, Operation.isTextual, hc]
    exact htext.symm
  rw [Comparator.operand?_congr ho] at hb
  rw [Comparator.projection_congr ho] at hs
  exact ⟨_, (Comparator.bind_one_ok_iff hc hx).2
    ⟨Comparator.supports_of_lessThan hsupports o, b, hb, rfl⟩,
    Expression.evaluate_compare_of_order hmany htext hs horder⟩

/-- **Trichotomy.** An operand that a scalar field takes for less it takes for all operations of
the order. On a loaded row in which the field is not null, nor one of floating-point numbers,
exactly one of less, equal and greater holds, and the other three hold as these say. -/
theorem trichotomy (hrow : Row.ofJson schema j = .ok row)
    (ht : Target.find schema c.field = .ok t) (hmany : t.many = false)
    (hfloat : ∀ width, t.type = .number width → width.representation ≠ .float)
    (hvalue : Row.value row t.index ≠ .null) (hx : x ≠ .null)
    (hless : ∃ e, (c.asking .lessThan [x]).bind schema defaultFormat = .ok e) :
    (∀ o ∈ Operation.orderings, ∃ e, (c.asking o [x]).bind schema defaultFormat = .ok e) ∧
      Operation.Trichotomy fun o => (c.asking o [x]).holds schema defaultFormat row := by
  obtain ⟨order, h⟩ := exists_ordering hrow ht hmany hfloat hvalue hx hless
  constructor
  · intro o ho
    obtain ⟨comparison, negated, hc, -⟩ := Operation.comparison?_of_mem_orderings ho
    obtain ⟨e, he, -⟩ := h o ho comparison negated hc
    exact ⟨e, he⟩
  · refine .of_ordering order ?_
    intro o ho comparison negated hc
    obtain ⟨e, he, hevaluate⟩ := h o ho comparison negated hc
    rw [holds, he]
    exact hevaluate

/-- A price against a number of another representation, which the field takes as a decimal. -/
theorem trichotomy_price :
    let schema : Schema := ⟨[⟨"Name", .string⟩, ⟨"Price", .optional (.number .decimal)⟩]⟩
    let j : Json := .object [("price", .string "12.50")]
    let c : Condition := plain "PRICE" .equal []
    let twelve : Value := .number (.int 12)
    ∃ row, Row.ofJson schema j = .ok row ∧
      (∀ o ∈ Operation.orderings, ∃ e, (c.asking o [twelve]).bind schema .isoDateTime = .ok e) ∧
      Operation.Trichotomy fun o => (c.asking o [twelve]).holds schema .isoDateTime row := by
  intro schema j c twelve
  have hrow : Row.ofJson schema j =
      .ok [.null, .number (.decimal ⟨false, 1250, 2, by decide, by decide⟩)] := by
    simp only [schema, j]
    rfl
  have hfind : Target.find schema "PRICE" =
      .ok ⟨1, "Price", .number, .number .decimal, false⟩ := by
    simp only [schema]
    rfl
  have hfloat : ∀ width, FieldType.number .decimal = .number width →
      width.representation ≠ .float := by
    rintro _ ⟨⟩ ⟨⟩
  have hless : ∃ e, (c.asking .lessThan [twelve]).bind schema .isoDateTime = .ok e := by
    simp only [schema, c, twelve]
    exact ⟨_, rfl⟩
  have hvalue : Row.value [.null, .number (.decimal ⟨false, 1250, 2, by decide, by decide⟩)] 1 ≠
      .null := by
    rintro ⟨⟩
  exact ⟨_, hrow, trichotomy hrow hfind rfl hfloat hvalue (by simp [twelve]) hless⟩

end Condition

end RecordSearch
