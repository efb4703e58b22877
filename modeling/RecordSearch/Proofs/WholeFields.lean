import RecordSearch.Proofs.ExactValues
import RecordSearch.Proofs.Faults
import RecordSearch.Proofs.Operands

/-!
Fields of whole numbers. An operand of any representation stands for its whole part, which has to be
in the range of the field, and from there on integers without bounds are compared.

* `Operation.Relates`: what an operation says about integers;
* `Comparator.bind_store`: operands in range are bound to the integers that they stand for;
* `Condition.whole_field_exact`: which operands a field of whole numbers refuses, and what a
  condition on it says about the stored integer.
-/

namespace RecordSearch

/-- What an operation says about an integer and those it is compared with. Nothing is said of ranges
without two bounds and of fragments. -/
def Operation.Relates : Operation → Int → List Int → Prop
  | equal, v, zs => ∀ z ∈ zs, v = z
  | notEqual, v, zs => ∀ z ∈ zs, v ≠ z
  | lessThan, v, zs => ∀ z ∈ zs, v < z
  | lessThanOrEqual, v, zs => ∀ z ∈ zs, v ≤ z
  | greaterThan, v, zs => ∀ z ∈ zs, z < v
  | greaterThanOrEqual, v, zs => ∀ z ∈ zs, z ≤ v
  | between, v, [low, high] => low ≤ v ∧ v ≤ high
  | notBetween, v, [low, high] => ¬(low ≤ v ∧ v ≤ high)
  | _, _, _ => False

/-- Outside of ranges an operation asks the same of each integer it is compared with. -/
theorem Operation.relates_iff {o : Operation} {comparison : Comparison} {negated : Bool}
    (hc : o.comparison? = some (comparison, negated)) (ho : o.isTextual = false) (v : Int)
    (zs : List Int) : o.Relates v zs ↔
      ∀ z ∈ zs, (comparison.admits (compare v z) != negated) = true := by
  cases o with
  | between | notBetween => cases hc
  | contains | notContains | startsWith | notStartsWith | endsWith | notEndsWith => cases ho
  | equal | notEqual | lessThan | lessThanOrEqual | greaterThan | greaterThanOrEqual =>
    obtain ⟨rfl, rfl⟩ := Prod.mk.inj (Option.some.inj hc)
    simp [Relates, Comparison.admits, Int.compare_eq_lt, Int.compare_eq_gt]

namespace Width

variable {w : Width} {x : Number} {z : Int}

/-- The number stands for something whose whole part is in the range of the width. -/
def Reaches (w : Width) (x : Number) (z : Int) : Prop :=
  ∃ q, x.value? = some q ∧ towardZero q = z ∧ w.Holds z

theorem Reaches.holds (h : w.Reaches x z) : w.Holds z := by
  obtain ⟨q, -, -, hz⟩ := h
  exact hz

theorem Reaches.coerce?_eq (h : w.Reaches x z) : w.coerce? x = some (w.store z) := by
  obtain ⟨q, hx, rfl, hz⟩ := h
  exact coerce?_of_value hx hz

theorem holds_of_reaches {xs : List Number} {zs : List Int} (h : List.Forall₂ w.Reaches xs zs) :
    ∀ z ∈ zs, w.Holds z := by
  induction h with
  | nil => exact fun z hz => absurd hz List.not_mem_nil
  | cons hx hrest ih => exact List.forall_mem_cons.2 ⟨hx.holds, ih⟩

theorem coerce?_eq_none_iff (hw : w.isWhole = true) :
    w.coerce? x = none ↔ ∀ q, x.value? = some q → ¬w.Holds (towardZero q) := by
  constructor
  · intro hnone q hx hz
    rw [coerce?_of_value hx hz] at hnone
    cases hnone
  · exact coerce?_eq_none_of_value hw

end Width

/-- Integers held in one width are tested as integers. -/
theorem Scalar.satisfies_store {w : Width} {comparison : Comparison} {v z : Int}
    (hcomparison : comparison.isTextual = false) (hv : w.Holds v) (hz : w.Holds z) :
    (number (w.store v)).satisfies comparison (number (w.store z)) =
      comparison.admits (compare v z) := by
  simp only [satisfies, hcomparison, Bool.false_eq_true, if_false, compare?,
    Width.compare?_store hv hz, Option.any_some]

theorem Scalar.isBetween_store {w : Width} {v low high : Int} (hv : w.Holds v)
    (hlow : w.Holds low) (hhigh : w.Holds high) :
    (number (w.store v)).isBetween (number (w.store low)) (number (w.store high)) =
      decide (low ≤ v ∧ v ≤ high) := by
  rw [isBetween, compare?, compare?, Width.compare?_store hv hlow, Width.compare?_store hv hhigh,
    Bool.eq_iff_iff]
  simp [Int.compare_eq_lt, Int.compare_eq_gt]

namespace Comparator

variable {w : Width} {column : Column} {o : Operation} {x : Number} {z : Int} {xs : List Number}
  {zs : List Int}

theorem operand?_store (ho : o.isTextual = false) (h : w.Reaches x z) :
    (number w).operand? o (.number x) = some (.number (w.store z)) := by
  rw [operand?, ho, if_neg (by decide), h.coerce?_eq, Option.map_some]

theorem refuses_iff (hw : w.isWhole = true) (ho : o.isTextual = false) {field : String}
    {err : QueryError} : (number w).Refuses field o (.number x) err ↔
      (∀ q, x.value? = some q → ¬w.Holds (towardZero q)) ∧
        .invalidOperand field o (.number x) = err := by
  rw [Refuses, operand?, ho, if_neg (by decide), Option.map_eq_none_iff,
    Width.coerce?_eq_none_iff hw]
  simp [Value.isNull]

/-- Numbers are refused only as operands, and only if they are out of range. -/
theorem exists_bind_error_iff (hw : w.isWhole = true) (ho : o.isTextual = false)
    (ha : o.arity.accepts xs.length = true) :
    (∃ x, (number w).bind column o (xs.map .number) =
        .error (.invalidOperand column.name o (.number x))) ↔
      ∃ x ∈ xs, ∀ q, x.value? = some q → ¬w.Holds (towardZero q) := by
  have hfault : ∀ err, (number w).bind column o (xs.map .number) = .error err ↔
      IsFirstFault ((number w).Refuses column.name o) (xs.map .number) err := by
    intro err
    rw [bind_eq_error_iff (by rwa [List.length_map])]
    simp [supports]
  constructor
  · rintro ⟨_, herr⟩
    obtain ⟨_, hv, _, hout⟩ := exists_isFirstFault_iff.1 ⟨_, (hfault _).1 herr⟩
    obtain ⟨x, hx, rfl⟩ := List.mem_map.1 hv
    exact ⟨x, hx, ((refuses_iff hw ho).1 hout).1⟩
  · rintro ⟨x, hx, hout⟩
    obtain ⟨err, hfirst⟩ := exists_isFirstFault_iff.2
      ⟨Value.number x, List.mem_map_of_mem hx, _, (refuses_iff hw ho).2 ⟨hout, rfl⟩⟩
    obtain ⟨v, hv, hrefused⟩ := hfirst.exists_mem
    obtain ⟨y, -, rfl⟩ := List.mem_map.1 hv
    refine ⟨y, ?_⟩
    rw [((refuses_iff hw ho).1 hrefused).2]
    exact (hfault _).2 hfirst

/-- What is asked of a field of whole numbers, by integers in its range. -/
def askStored (w : Width) (column : Column) (o : Operation) (zs : List Int) : Expression :=
  match o.comparison?, zs with
  | some (comparison, negated), zs =>
    .all (zs.map fun z => .compare column .number comparison (.number (w.store z)) negated)
  | none, [low, high] =>
    .between column .number (.number (w.store low)) (.number (w.store high)) (o == .notBetween)
  | none, _ => .literal false

theorem askScalars_store (ho : o.isTextual = false) (zs : List Int) :
    (number w).askScalars column o (zs.map fun z => .number (w.store z)) =
      askStored w column o zs := by
  have hprojection : (number w).projection o = .number := by
    rw [projection, ho, if_neg (by decide)]
  cases hc : o.comparison? with
  | some p =>
    obtain ⟨comparison, negated⟩ := p
    simp only [askScalars, askStored, hc, hprojection, List.map_map, Function.comp_def]
  | none =>
    rcases zs with _ | ⟨_, _ | ⟨_, _ | _⟩⟩ <;> simp [askScalars, askStored, hc, hprojection]

/-- Operands in range are bound to the integers that they stand for. -/
theorem bind_store (ho : o.isTextual = false) (ha : o.arity.accepts xs.length = true)
    (h : List.Forall₂ w.Reaches xs zs) :
    (number w).bind column o (xs.map .number) = .ok (askStored w column o zs) := by
  rw [← askScalars_store ho]
  apply bind_scalars rfl (by rwa [List.length_map])
  rw [List.forall₂_map_left_iff, List.forall₂_map_right_iff]
  exact h.imp fun x z hx => operand?_store ho hx

/-- What is asked of a stored integer is what the operation says about integers. -/
theorem evaluate_askStored {row : Row} {v : Int} (ho : o.isTextual = false)
    (ha : o.arity.accepts zs.length = true) (hv : w.Holds v) (hzs : ∀ z ∈ zs, w.Holds z)
    (hmany : column.many = false) (hrow : Row.value row column.index = .number (w.store v)) :
    (askStored w column o zs).evaluate row = true ↔ o.Relates v zs := by
  have hcolumn : ∀ negated test, columnMatches (Row.value row column.index) column.many .number
      negated test = (test (.number (w.store v)) != negated) := by
    intro negated test
    rw [hmany, hrow]
    rfl
  cases hc : o.comparison? with
  | some p =>
    obtain ⟨comparison, negated⟩ := p
    have hcomparison : comparison.isTextual = false := by
      rwa [Operation.isTextual, hc] at ho
    simp only [askStored, hc, Expression.evaluate_all, List.all_map, List.all_eq_true,
      Operation.relates_iff hc ho]
    refine forall₂_congr fun z hz => ?_
    rw [Function.comp_apply, Expression.evaluate, hcolumn,
      Scalar.satisfies_store hcomparison hv (hzs z hz)]
  | none =>
    obtain ⟨low, high, rfl⟩ := List.length_eq_two.1 (Operation.eq_two_of_accepts hc ha)
    simp only [askStored, hc, Expression.evaluate, hcolumn,
      Scalar.isBetween_store hv (hzs low (by simp)) (hzs high (by simp))]
    cases o with
    | between =>
      change (decide (low ≤ v ∧ v ≤ high) != false) = true ↔ low ≤ v ∧ v ≤ high
      rw [Bool.bne_false, decide_eq_true_eq]
    | notBetween =>
      change (decide (low ≤ v ∧ v ≤ high) != true) = true ↔ ¬(low ≤ v ∧ v ≤ high)
      rw [Bool.bne_true, Bool.not_eq_true', decide_eq_false_iff_not]
    | _ => cases hc

end Comparator

namespace Condition

variable {c : Condition} {schema : Schema} {defaultFormat : DateFormat} {t : Target} {w : Width}
  {xs : List Number}

/-- **Fields of whole numbers compare exactly.** A condition on such a field that looks for no
fragment fails by one of its operands if and only if one of them is not finite or has its whole part
out of range. With all of them in range it says of a stored integer what its operation says of
integers. -/
theorem whole_field_exact (ht : Target.find schema c.field = .ok t)
    (htype : t.type = .number w) (hw : w.isWhole = true) (ho : c.operation.isTextual = false)
    (hvalues : c.values = xs.map .number) (harity : c.HasArity) :
    ((∃ x, c.bind schema defaultFormat =
        .error (.invalidOperand t.name c.operation (.number x))) ↔
      ∃ x ∈ xs, ∀ q, x.value? = some q → ¬w.Holds (towardZero q)) ∧
    ∀ zs, List.Forall₂ w.Reaches xs zs → ∃ e, c.bind schema defaultFormat = .ok e ∧
      (t.many = false → ∀ row v, w.Holds v → Row.value row t.index = .number (w.store v) →
        (e.evaluate row = true ↔ c.operation.Relates v zs)) := by
  have hbind : c.bind schema defaultFormat = (Comparator.number w).bind t.column c.operation
      (xs.map .number) := by
    rw [bind_of_find ht, htype, hvalues]
    rfl
  have ha : c.operation.arity.accepts xs.length = true := by
    rw [HasArity, hvalues, List.length_map] at harity
    exact harity
  constructor
  · rw [hbind]
    exact Comparator.exists_bind_error_iff hw ho ha
  · intro zs hzs
    refine ⟨_, hbind.trans (Comparator.bind_store ho ha hzs), ?_⟩
    intro hmany row v hv hrow
    exact Comparator.evaluate_askStored ho (hzs.length_eq ▸ ha) hv (Width.holds_of_reaches hzs)
      hmany hrow

/-- A byte between a negative fraction and a decimal, of which the whole parts count, and an operand
that no byte reaches. -/
theorem whole_field_exact_byte :
    let schema : Schema := ⟨[⟨"Name", .string⟩, ⟨"Size", .optional (.number .u8)⟩]⟩
    let half : Number := .float (.finite true ⟨2 ^ 52, -53, by decide⟩)
    let most : Number := .decimal ⟨false, 19999, 2, by decide, by decide⟩
    let c : Condition := .plain "size" .between [.number half, .number most]
    let d : Condition := .plain "size" .lessThan [.number (.int (-1))]
    let row : Row := [.null, .number (.uint 199)]
    (∃ e, c.bind schema .isoDateTime = .ok e ∧ e.evaluate row = true) ∧
      ∃ x, d.bind schema .isoDateTime = .error (.invalidOperand "Size" .lessThan (.number x)) := by
  intro schema half most c d row
  have hfind : Target.find schema "size" = .ok ⟨1, "Size", .number, .number .u8, false⟩ := by
    simp only [schema]
    rfl
  constructor
  · have hhalf : half.value? = some (-1 / 2) := by
      simp only [half, Number.value?, Floating.value?, Floating.signed]
      norm_num
    have hmost : most.value? = some (19999 / 100) := by
      simp only [most, Number.value?, Decimal.value, Floating.signed]
      norm_num
    have hzero : Width.u8.Holds 0 := ⟨by decide, by decide⟩
    have h199 : Width.u8.Holds 199 := ⟨by decide, by decide⟩
    have hreach : List.Forall₂ Width.u8.Reaches [half, most] [0, 199] := by
      refine .cons ⟨_, hhalf, ?_, hzero⟩ (.cons ⟨_, hmost, ?_, h199⟩ .nil)
      · norm_num [towardZero]
      · norm_num [towardZero]
    obtain ⟨-, hok⟩ := @whole_field_exact c schema .isoDateTime _ _ [half, most] hfind rfl rfl
      rfl rfl (by decide)
    obtain ⟨e, he, hexact⟩ := hok _ hreach
    exact ⟨e, he, (hexact rfl row 199 h199 rfl).2 ⟨by decide, by decide⟩⟩
  · obtain ⟨herror, -⟩ := @whole_field_exact d schema .isoDateTime _ _ [.int (-1)] hfind rfl rfl
      rfl rfl (by decide)
    refine herror.2 ⟨_, List.mem_cons_self, ?_⟩
    rintro _ ⟨⟩ ⟨hneg, -⟩
    rw [towardZero_intCast] at hneg
    exact absurd hneg (by decide)

end Condition

end RecordSearch
