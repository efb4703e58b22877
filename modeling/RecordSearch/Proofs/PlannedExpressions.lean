import RecordSearch.Proofs.Loading
import RecordSearch.Proofs.Operands

/-!
What every planned expression looks like, whatever the search and the schema were. The nodes are
tied to the schema: columns are declared fields, and operands have the sort, the width and the
spelling that the field's type asks for.

* `Scalar.IsOperand`: the scalars that fields of a type are compared with;
* `Expression.isPlanned_of_bind`, `Expression.isPlanned_of_plan`: the invariant of binding and of
  planning;
* `Expression.isSound_of_plan`: what it says of a single node.
-/

namespace RecordSearch

/-- The four sorts of scalars. Scalars of different sorts never compare. -/
inductive ScalarSort where
  | text
  | number
  | boolean
  | member
deriving DecidableEq

def Scalar.sort : Scalar → ScalarSort
  | text _ => .text
  | number _ => .number
  | boolean _ => .boolean
  | member _ => .member

/-- The sort of the scalars that a projection makes. -/
def Projection.sort : Projection → ScalarSort
  | text _ | numberText _ | dateText _ => .text
  | number => .number
  | boolean => .boolean
  | member => .member

theorem Projection.sort_of_project? {p : Projection} {v : Value} {s : Scalar}
    (h : p.project? v = some s) : s.sort = p.sort := by
  cases p <;> cases v <;> cases h <;> rfl

theorem Operation.isTextual_eq {o : Operation} {comparison : Comparison} {negated : Bool}
    (h : o.comparison? = some (comparison, negated)) : o.isTextual = comparison.isTextual := by
  rw [isTextual, h]

theorem Operation.isTextual_of_range {o : Operation} (h : o.comparison? = none) :
    o.isTextual = false := by
  rw [isTextual, h]

/-- An operation that is negated asks for a difference or for the lack of a fragment. -/
theorem Operation.negated_comparison {o : Operation} {comparison : Comparison}
    (h : o.comparison? = some (comparison, true)) :
    comparison = .equal ∨ comparison.isTextual = true := by
  cases o <;> cases h <;> simp [Comparison.isTextual]

/-- The scalars that fields of a scalar type are compared with, each with the projection of the
field. With `textual` the comparison looks for a fragment. -/
inductive Scalar.IsOperand (textual : Bool) : FieldType → Projection → Scalar → Prop where
  | string (mode : CaseMode) (s : String) : IsOperand textual .string (.text mode) (.text s)
  | char (mode : CaseMode) (s : String) : IsOperand textual .char (.text mode) (.text s)
  | digits (width : Width) (s : String) (h : textual = true) :
      IsOperand textual (.number width) (.numberText width) (.text s)
  | number {width : Width} {m n : Number} (h : textual = false) (hn : width.coerce? m = some n) :
      IsOperand textual (.number width) .number (.number n)
  | boolean (b : Bool) (h : textual = false) : IsOperand textual .boolean .boolean (.boolean b)
  | dateTime (format : DateFormat) (s : String) :
      IsOperand textual .dateTime (.dateText format) (.text s)
  | date (format : DateFormat) (s : String) : IsOperand textual .date (.dateText format) (.text s)
  | enum {e : EnumType} {m : String} (h : textual = false) (hm : m ∈ e.members) :
      IsOperand textual (.enum e) .member (.member m)

theorem Comparator.isTextual_of_supports {k : Comparator} {o : Operation}
    (hk : k = .boolean ∨ ∃ e, k = .enumerated e) (h : k.supports o = true) :
    o.isTextual = false := by
  obtain rfl | ⟨e, rfl⟩ := hk <;> cases o <;> first | rfl | cases h

section Operands

variable {k : Comparator} {t : FieldType} {mode : CaseMode} {format : DateFormat}
  {o : Operation} {v : Value} {s : Scalar}

theorem Comparator.exists_text_of_string (h : (string mode).operand? o v = some s) :
    ∃ x, s = .text x := by
  cases v <;> cases h
  exact ⟨_, rfl⟩

theorem Comparator.exists_text_of_date (h : (date format).operand? o v = some s) :
    ∃ x, s = .text x := by
  cases v with
  | instant x => exact ⟨_, (Option.some.inj h).symm⟩
  | text x =>
    obtain ⟨-, h⟩ := Option.ite_none_right_eq_some.1 h
    exact ⟨x, (Option.some.inj h).symm⟩
  | null | boolean | number | member | list => cases h

theorem Comparator.exists_member_of_enumerated {e : EnumType}
    (h : (enumerated e).operand? o v = some s) : ∃ m ∈ e.members, s = .member m := by
  have hmember : ∀ {name : String}, (e.member? name).map Scalar.member = some s →
      ∃ m ∈ e.members, s = .member m := by
    intro name h
    obtain ⟨m, hm, h⟩ := Option.map_eq_some_iff.1 h
    exact ⟨m, EnumType.mem_of_member? hm, h.symm⟩
  cases v with
  | member enumName m => exact hmember (Option.ite_none_right_eq_some.1 h).2
  | text m => exact hmember h
  | null | boolean | number | instant | list => cases h

theorem Comparator.isOperand_of_number {width : Width}
    (h : (number width).operand? o v = some s) :
    s.IsOperand o.isTextual (.number width) ((number width).projection o) := by
  cases v with
  | number m =>
    cases ho : o.isTextual with
    | true =>
      simp only [operand?, ho, if_true, Option.some.injEq] at h
      simp only [projection, ho, if_true, ← h]
      exact .digits width _ rfl
    | false =>
      simp only [operand?, ho, Bool.false_eq_true, if_false] at h
      obtain ⟨n, hn, rfl⟩ := Option.map_eq_some_iff.1 h
      simp only [projection, ho, Bool.false_eq_true, if_false]
      exact .number rfl hn
  | null | boolean | text | instant | member | list => cases h

/-- What the rules of a type make of an operand belongs to the type. -/
theorem Comparator.isOperand_of_operand? (hk : t.comparator? mode format = some k)
    (hsupports : k.supports o = true) (hs : k.operand? o v = some s) :
    s.IsOperand o.isTextual t (k.projection o) := by
  cases t with
  | unit | optional | list | other => cases hk
  | string =>
    obtain rfl := Option.some.inj hk
    obtain ⟨x, rfl⟩ := exists_text_of_string hs
    exact .string mode x
  | char =>
    obtain rfl := Option.some.inj hk
    obtain ⟨x, rfl⟩ := exists_text_of_string hs
    exact .char mode x
  | dateTime =>
    obtain rfl := Option.some.inj hk
    obtain ⟨x, rfl⟩ := exists_text_of_date hs
    exact .dateTime format x
  | date =>
    obtain rfl := Option.some.inj hk
    obtain ⟨x, rfl⟩ := exists_text_of_date hs
    exact .date format x
  | number width =>
    obtain rfl := Option.some.inj hk
    exact isOperand_of_number hs
  | boolean =>
    obtain rfl := Option.some.inj hk
    cases v <;> cases hs
    exact .boolean _ (isTextual_of_supports (.inl rfl) hsupports)
  | enum e =>
    obtain rfl := Option.some.inj hk
    obtain ⟨m, hm, rfl⟩ := exists_member_of_enumerated hs
    exact .enum (isTextual_of_supports (.inr ⟨e, rfl⟩) hsupports) hm

end Operands

theorem Scalar.IsOperand.sort_eq {textual : Bool} {t : FieldType} {p : Projection} {s : Scalar}
    (h : s.IsOperand textual t p) : s.sort = p.sort := by
  cases h <;> rfl

/-- Only text is searched for a fragment. -/
theorem Scalar.IsOperand.sort_of_textual {t : FieldType} {p : Projection} {s : Scalar}
    (h : s.IsOperand true t p) : p.sort = .text := by
  cases h with
  | string | char | digits | dateTime | date => rfl
  | number h | boolean _ h | enum h => cases h

/-- The column is that of a declared field, and of the one to which the declared name leads. -/
structure Column.Denotes (schema : Schema) (c : Column) (f : Field) : Prop where
  getElem?_eq : schema.fields[c.index]? = some f
  name_eq : c.name = f.name
  many_eq : c.many = f.type.isList
  resolve?_eq : schema.resolve? f.name = some (c.index, f)

/-- The first field that a name leads to is also the first one with its own spelling. -/
theorem Schema.resolve?_name {schema : Schema} {name : String} {index : Nat} {f : Field}
    (h : schema.resolve? name = some (index, f)) : schema.resolve? f.name = some (index, f) := by
  obtain ⟨i, hi, h⟩ := Option.bind_eq_some_iff.1 h
  obtain ⟨g, hg, h⟩ := Option.bind_eq_some_iff.1 h
  obtain ⟨rfl, rfl⟩ := Prod.mk.inj (Option.some.inj h)
  have hindex : schema.index? g.name = some i := by
    rcases Option.or_eq_some_iff.1 hi with hexact | ⟨-, hsame⟩
    · obtain ⟨hlt, hname, -⟩ := List.findIdx?_eq_some_iff_getElem.1 hexact
      rw [List.getElem_eq_iff hlt |>.2 hg, beq_iff_eq] at hname
      rw [hname, index?, hexact, Option.some_or]
    · obtain ⟨hlt, hname, hbefore⟩ := List.findIdx?_eq_some_iff_getElem.1 hsame
      have hfirst : schema.fields.findIdx? (fun f => f.name == g.name) = some i := by
        refine List.findIdx?_eq_some_iff_getElem.2 ⟨hlt, ?_, fun j hj heq => hbefore j hj ?_⟩
        · rw [List.getElem_eq_iff hlt |>.2 hg, beq_self_eq_true]
        · rwa [beq_iff_eq.1 heq, ← List.getElem_eq_iff hlt |>.2 hg]
      rw [index?, hfirst, Option.some_or]
  simp only [resolve?, hindex, hg, Option.bind_eq_bind, Option.bind_some]
  rfl

theorem Target.exists_denotes {schema : Schema} {name : String} {t : Target}
    (h : find schema name = .ok t) :
    ∃ f, t.column.Denotes schema f ∧ t.type = scalarType f.type := by
  obtain ⟨index, f, kind, hresolve, -, rfl⟩ := find_eq_ok_iff.1 h
  exact ⟨f, ⟨Schema.getElem?_of_resolve? hresolve, rfl, rfl, Schema.resolve?_name hresolve⟩, rfl⟩

namespace Expression

/-- The first expression stands somewhere in the second. -/
inductive Within : Expression → Expression → Prop where
  | refl (e : Expression) : Within e e
  | conjunction {d child : Expression} {children : List Expression} (hc : child ∈ children)
      (h : Within d child) : Within d (.conjunction children)
  | disjunction {d child : Expression} {children : List Expression} (hc : child ∈ children)
      (h : Within d child) : Within d (.disjunction children)

/-- The expressions that planning over a schema makes. -/
inductive IsPlanned (schema : Schema) : Expression → Prop where
  | literal (b : Bool) : IsPlanned schema (.literal b)
  | isNull {c : Column} {f : Field} (hc : c.Denotes schema f) : IsPlanned schema (.isNull c)
  | isNotNull {c : Column} {f : Field} (hc : c.Denotes schema f) : IsPlanned schema (.isNotNull c)
  | compare {c : Column} {f : Field} {p : Projection} {comparison : Comparison} {s : Scalar}
      {negated : Bool} (hc : c.Denotes schema f)
      (hs : s.IsOperand comparison.isTextual (Target.scalarType f.type) p)
      (hn : negated = true → comparison = .equal ∨ comparison.isTextual = true) :
      IsPlanned schema (.compare c p comparison s negated)
  | between {c : Column} {f : Field} {p : Projection} {low high : Scalar} (negated : Bool)
      (hc : c.Denotes schema f) (hlow : low.IsOperand false (Target.scalarType f.type) p)
      (hhigh : high.IsOperand false (Target.scalarType f.type) p) :
      IsPlanned schema (.between c p low high negated)
  | conjunction {children : List Expression} (hlen : 2 ≤ children.length)
      (h : ∀ e ∈ children, IsPlanned schema e) : IsPlanned schema (.conjunction children)
  | disjunction {children : List Expression} (hlen : 2 ≤ children.length)
      (h : ∀ e ∈ children, IsPlanned schema e) : IsPlanned schema (.disjunction children)

variable {schema : Schema} {d e : Expression} {es : List Expression}

theorem IsPlanned.within (h : IsPlanned schema e) (hd : d.Within e) : IsPlanned schema d := by
  induction hd with
  | refl => exact h
  | conjunction hc _ ih =>
    cases h with
    | conjunction _ h => exact ih (h _ hc)
  | disjunction hc _ ih =>
    cases h with
    | disjunction _ h => exact ih (h _ hc)

theorem isPlanned_all (h : ∀ e ∈ es, IsPlanned schema e) : IsPlanned schema (all es) := by
  match es with
  | [] => exact .literal true
  | [e] => exact h e List.mem_cons_self
  | _ :: _ :: rest => exact .conjunction (Nat.le_add_left 2 rest.length) h

theorem isPlanned_any (h : ∀ e ∈ es, IsPlanned schema e) : IsPlanned schema (any es) := by
  match es with
  | [] => exact .literal false
  | [e] => exact h e List.mem_cons_self
  | _ :: _ :: rest => exact .disjunction (Nat.le_add_left 2 rest.length) h

theorem isPlanned_combine? {connective : Connective} (h : ∀ e ∈ es, IsPlanned schema e)
    (he : connective.combine? es = some e) : IsPlanned schema e := by
  match es with
  | [] => cases he
  | _ :: _ =>
    obtain rfl := Option.some.inj he
    cases connective with
    | and => exact isPlanned_all h
    | or => exact isPlanned_any h

variable {c : Column} {f : Field}

theorem isPlanned_nullTest (hc : c.Denotes schema f) (o : Operation) :
    IsPlanned schema (nullTest c o) := by
  cases o with
  | equal => exact .isNull hc
  | notEqual => exact .isNotNull hc
  | _ => exact .literal false

theorem isPlanned_bindNull {o : Operation} {values : List Value} (hc : c.Denotes schema f)
    (h : bindNull c o values = .ok e) : IsPlanned schema e := by
  obtain ⟨-, h⟩ := bindNull_eq_ok_iff.1 h
  split at h
  · rw [← h]
    exact .literal false
  · rw [← h]
    apply isPlanned_all
    intro d hd
    obtain ⟨v, -, rfl⟩ := List.mem_map.1 hd
    split
    · exact isPlanned_nullTest hc o
    · exact .literal false

section Comparators

variable {k : Comparator} {mode : CaseMode} {format : DateFormat} {o : Operation}

theorem isPlanned_leaf {comparison : Comparison} {negated : Bool} {v : Value}
    (hc : c.Denotes schema f)
    (hk : (Target.scalarType f.type).comparator? mode format = some k)
    (hsupports : k.supports o = true) (ho : o.comparison? = some (comparison, negated))
    (h : k.leaf c o comparison negated v = .ok e) : IsPlanned schema e := by
  cases hv : v.isNull with
  | true =>
    obtain rfl := Value.isNull_iff.1 hv
    obtain rfl := Except.ok.inj h
    exact isPlanned_nullTest hc o
  | false =>
    obtain ⟨s, hs, rfl⟩ := (Comparator.leaf_eq_ok_iff hv).1 h
    have hoperand := Comparator.isOperand_of_operand? hk hsupports hs
    rw [Operation.isTextual_eq ho] at hoperand
    refine .compare hc hoperand ?_
    rintro rfl
    exact Operation.negated_comparison ho

theorem isPlanned_range {low high : Value} (hc : c.Denotes schema f)
    (hk : (Target.scalarType f.type).comparator? mode format = some k)
    (hsupports : k.supports o = true) (ho : o.comparison? = none)
    (h : k.range c o low high = .ok e) : IsPlanned schema e := by
  have hoperand : ∀ {v : Value} {s : Scalar}, k.bound c o v = .ok (some s) →
      s.IsOperand false (Target.scalarType f.type) (k.projection o) := by
    intro v s hs
    have hv := Value.isNull_eq_false_iff.2 (Comparator.ne_null_of_bound hs)
    obtain ⟨x, hx, heq⟩ := (Comparator.bound_eq_ok_iff hv).1 hs
    obtain rfl := Option.some.inj heq
    rw [← Operation.isTextual_of_range ho]
    exact Comparator.isOperand_of_operand? hk hsupports hx
  obtain ⟨a, ha, b, hb, rfl⟩ := Comparator.range_eq_ok_iff.1 h
  cases a with
  | none => exact .literal false
  | some low =>
    cases b with
    | none => exact .literal false
    | some high => exact .between _ hc (hoperand ha) (hoperand hb)

theorem isPlanned_comparator {values : List Value} (hc : c.Denotes schema f)
    (hk : (Target.scalarType f.type).comparator? mode format = some k)
    (h : k.bind c o values = .ok e) : IsPlanned schema e := by
  obtain ⟨-, hsupports, h⟩ := Comparator.bind_eq_ok_iff.1 h
  cases ho : o.comparison? with
  | some p =>
    rw [ho] at h
    obtain ⟨es, hes, rfl⟩ := h
    apply isPlanned_all
    exact forall_of_mapM hes fun v _ d hd => isPlanned_leaf hc hk hsupports ho hd
  | none =>
    rw [ho] at h
    obtain ⟨low, high, -, h⟩ := h
    exact isPlanned_range hc hk hsupports ho h

end Comparators

theorem isPlanned_of_bind {condition : Condition} {format : DateFormat}
    (h : condition.bind schema format = .ok e) : IsPlanned schema e := by
  obtain ⟨t, ht, -⟩ := Condition.bind_eq_ok_iff.1 h
  obtain ⟨f, hc, htype⟩ := Target.exists_denotes ht
  rw [Condition.bind_of_find ht, htype] at h
  cases hk : (Target.scalarType f.type).comparator? condition.case
      (condition.format.getD format) with
  | none =>
    rw [hk] at h
    exact isPlanned_bindNull hc h
  | some k =>
    rw [hk] at h
    exact isPlanned_comparator hc hk h

mutual

theorem isPlanned_of_node {format : DateFormat} : ∀ (n : Node) {e : Expression},
    n.plan schema format = .ok (some e) → IsPlanned schema e
  | .condition c, e, h => by
    obtain ⟨d, hd, heq⟩ := Node.plan_condition_ok_iff.1 h
    obtain rfl := Option.some.inj heq
    exact isPlanned_of_bind hd
  | .group connective children, e, h => by
    obtain ⟨es, hes, he⟩ := Node.plan_group_ok_iff.1 h
    exact isPlanned_combine? (isPlanned_of_nodes children hes) he

theorem isPlanned_of_nodes {format : DateFormat} : ∀ (ns : List Node) {es : List Expression},
    Node.planChildren schema format ns = .ok es → ∀ e ∈ es, IsPlanned schema e
  | [], es, h => by
    obtain rfl : [] = es := by simpa [Node.planChildren] using h
    exact fun e he => absurd he List.not_mem_nil
  | child :: rest, es, h => by
    obtain ⟨first, hfirst, others, hothers, rfl⟩ := Node.planChildren_cons_ok_iff.1 h
    intro e he
    rcases List.mem_append.1 he with he | he
    · rw [Option.mem_toList] at he
      rw [he] at hfirst
      exact isPlanned_of_node child hfirst
    · exact isPlanned_of_nodes rest hothers e he

end

theorem isPlanned_of_plan {s : Search} (h : s.plan schema = .ok e) : IsPlanned schema e := by
  rw [Search.plan, map_ok_iff] at h
  obtain ⟨o, ho, rfl⟩ := h
  cases o with
  | none => exact .literal true
  | some d => exact isPlanned_of_node s.root ho

end Expression

/-- The scalar is one that the projection of a field can be compared with: of the sort that the
projection makes, a number as it is held in the field's width, a member as it is declared. -/
structure Scalar.Suits (s : Scalar) (p : Projection) (t : FieldType) : Prop where
  sort_eq : s.sort = p.sort
  number : ∀ n, s = .number n → ∃ width m, t = .number width ∧ width.coerce? m = some n
  member : ∀ m, s = .member m → ∃ e, t = .enum e ∧ m ∈ e.members

theorem Scalar.IsOperand.suits {textual : Bool} {t : FieldType} {p : Projection} {s : Scalar}
    (h : s.IsOperand textual t p) : s.Suits p t where
  sort_eq := h.sort_eq
  number := by
    rintro n rfl
    cases h with
    | number _ hn => exact ⟨_, _, rfl, hn⟩
  member := by
    rintro m rfl
    cases h with
    | enum _ hm => exact ⟨_, rfl, hm⟩

namespace Expression

/-- A single node makes sense over the schema. -/
def IsSound (schema : Schema) : Expression → Prop
  | literal _ => True
  | isNull c | isNotNull c => ∃ f, c.Denotes schema f
  | compare c p comparison operand negated =>
    ∃ f, c.Denotes schema f ∧ operand.Suits p (Target.scalarType f.type) ∧
      (negated = true → comparison = .equal ∨ comparison.isTextual = true) ∧
      (comparison.isTextual = true → p.sort = .text ∧ operand.sort = .text)
  | between c p low high _ =>
    ∃ f, c.Denotes schema f ∧ low.Suits p (Target.scalarType f.type) ∧
      high.Suits p (Target.scalarType f.type)
  | conjunction children | disjunction children => 2 ≤ children.length

variable {schema : Schema} {e : Expression}

theorem IsPlanned.isSound (h : IsPlanned schema e) : e.IsSound schema := by
  cases h with
  | literal => exact trivial
  | isNull hc | isNotNull hc => exact ⟨_, hc⟩
  | compare hc hs hn =>
    refine ⟨_, hc, hs.suits, hn, fun ht => ?_⟩
    rw [ht] at hs
    exact ⟨hs.sort_of_textual, hs.sort_eq.trans hs.sort_of_textual⟩
  | between _ hc hlow hhigh => exact ⟨_, hc, hlow.suits, hhigh.suits⟩
  | conjunction hlen | disjunction hlen => exact hlen

/-- **Plans are well formed.** Every node of a planned expression makes sense over the schema: its
column is a declared field, what it is compared with suits that field, and a group has at least two
children. -/
theorem isSound_of_plan {s : Search} (h : s.plan schema = .ok e) {d : Expression}
    (hd : d.Within e) : d.IsSound schema :=
  ((isPlanned_of_plan h).within hd).isSound

/-- The members of a list are compared in their declared spelling, below two groups. -/
theorem isSound_of_plan_nested :
    let schema : Schema :=
      ⟨[⟨"Id", .number .i32⟩, ⟨"Roles", .optional (.list (.enum ⟨"Role", ["Owner", "Guest"]⟩))⟩]⟩
    let s := (Search.any.addCondition (.between "id" (.number (.int 1)) (.number (.int 9)))).addGroup
      (Search.all.addCondition (.plain "ROLES" .notEqual [.text "guest", .null]))
    let d : Expression := .compare ⟨1, "Roles", true⟩ .member .equal (.member "Guest") true
    ∃ e, s.plan schema = .ok e ∧ d.Within e ∧ d.IsSound schema := by
  intro schema s d
  obtain ⟨e, h, hd⟩ : ∃ e, s.plan schema = .ok e ∧ d.Within e := by
    simp only [schema, s]
    exact ⟨_, rfl, .disjunction (.tail _ (.head _)) (.conjunction (.head _) (.refl _))⟩
  exact ⟨e, h, hd, isSound_of_plan h hd⟩

end Expression

end RecordSearch
