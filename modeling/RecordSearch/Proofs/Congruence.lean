import RecordSearch.Proofs.Binding
import RecordSearch.Proofs.Encoding
import RecordSearch.Proofs.Meaning
import Mathlib.Data.List.Forall2

/-!
Searches that differ in their operands alone. Related operands are bound to related expressions,
where the relation is sameness, or that the two hold of the same rows.

* `Congruence`: the relations for which this is so, `congruence_eq` and `congruence_equivalent`;
* `Condition.bind_mapOperands`: a condition with operands in the places of its own;
* `Search.plan_mapConditions_of_replaces`: a search with conditions in the places of its own.
-/

namespace RecordSearch

section Results

variable {ε α β γ δ : Type}

theorem mapM_forall₂ {f : α → Except ε β} {g : γ → Except ε δ} {h : α → γ} {R : δ → β → Prop}
    {as : List α} {bs : List β} (hf : as.mapM f = .ok bs)
    (hg : ∀ a ∈ as, ∀ b, f a = .ok b → ∃ d, g (h a) = .ok d ∧ R d b) :
    ∃ ds, (as.map h).mapM g = .ok ds ∧ List.Forall₂ R ds bs := by
  induction as generalizing bs with
  | nil =>
    obtain rfl : [] = bs := Except.ok.inj hf
    exact ⟨[], rfl, .nil⟩
  | cons a rest ih =>
    obtain ⟨b, hb, others, hothers, rfl⟩ := mapM_cons_ok_iff.1 hf
    obtain ⟨d, hd, hR⟩ := hg a List.mem_cons_self b hb
    obtain ⟨ds, hds, hall⟩ := ih hothers fun a ha => hg a (List.mem_cons_of_mem _ ha)
    rw [List.map_cons]
    exact ⟨d :: ds, mapM_cons_ok_iff.2 ⟨d, hd, ds, hds, rfl⟩, .cons hR hall⟩

end Results

namespace Expression

/-- The two hold of the same rows. -/
def Equivalent (d e : Expression) : Prop := ∀ row, d.evaluate row = e.evaluate row

theorem Equivalent.refl (e : Expression) : e.Equivalent e := fun _ => rfl

variable {ds es : List Expression}

theorem equivalent_all (h : List.Forall₂ Equivalent ds es) : (all ds).Equivalent (all es) := by
  intro row
  rw [evaluate_all, evaluate_all]
  induction h with
  | nil => rfl
  | cons hfirst _ ih => rw [List.all_cons, List.all_cons, hfirst row, ih]

theorem equivalent_any (h : List.Forall₂ Equivalent ds es) : (any ds).Equivalent (any es) := by
  intro row
  rw [evaluate_any, evaluate_any]
  induction h with
  | nil => rfl
  | cons hfirst _ ih => rw [List.any_cons, List.any_cons, hfirst row, ih]

end Expression

/-- No number compares with the one in another way than with the other. -/
def Number.Alike (m n : Number) : Prop := ∀ a : Number, a.compare? m = a.compare? n

/-- As an operand the one does what the other does. -/
inductive Scalar.Alike : Scalar → Scalar → Prop where
  | refl (s : Scalar) : Alike s s
  | number {m n : Number} (h : m.Alike n) : Alike (.number m) (.number n)

namespace Scalar.Alike

variable {s t low high low' high' : Scalar}

theorem compare?_eq (h : Alike s t) (field : Scalar) : field.compare? s = field.compare? t := by
  cases h with
  | refl => rfl
  | number h =>
    cases field with
    | number a => exact h a
    | text | boolean | member => rfl

theorem satisfies_eq (h : Alike s t) (field : Scalar) (c : Comparison) :
    field.satisfies c s = field.satisfies c t := by
  have hcompare := h.compare?_eq field
  cases h with
  | refl => rfl
  | number => cases field <;> simp only [satisfies, hcompare]

theorem isBetween_eq (hlow : Alike low low') (hhigh : Alike high high') (field : Scalar) :
    field.isBetween low high = field.isBetween low' high' := by
  rw [isBetween, isBetween, hlow.compare?_eq field, hhigh.compare?_eq field]

end Scalar.Alike

/-- What is made of related operands in the same way is related. -/
structure Congruence (Q : Scalar → Scalar → Prop) (R : Expression → Expression → Prop) : Prop where
  refl : ∀ e, R e e
  compare : ∀ {s t}, Q s t → ∀ column p comparison negated,
    R (.compare column p comparison s negated) (.compare column p comparison t negated)
  between : ∀ {low high low' high'}, Q low low' → Q high high' → ∀ column p negated,
    R (.between column p low high negated) (.between column p low' high' negated)
  all : ∀ {ds es}, List.Forall₂ R ds es → R (.all ds) (.all es)

theorem congruence_eq : Congruence Eq Eq where
  refl _ := rfl
  compare h _ _ _ _ := by rw [h]
  between hlow hhigh _ _ _ := by rw [hlow, hhigh]
  all h := congrArg Expression.all (List.forall₂_eq_eq_eq ▸ h)

theorem congruence_equivalent : Congruence Scalar.Alike Expression.Equivalent where
  refl := Expression.Equivalent.refl
  compare h _ _ _ _ _ := by simp only [Expression.evaluate, h.satisfies_eq]
  between hlow hhigh _ _ _ _ := by simp only [Expression.evaluate, hlow.isBetween_eq hhigh]
  all := Expression.equivalent_all

section Operands

variable {Q : Scalar → Scalar → Prop} {R : Expression → Expression → Prop}

namespace Comparator

variable {k : Comparator} {column : Column} {o : Operation} {v w : Value}

/-- The first operand serves the operation as the second one does: it is null as that one is, and
it is a related scalar if that one is a scalar. -/
def ActsFor (Q : Scalar → Scalar → Prop) (k : Comparator) (o : Operation) (w v : Value) : Prop :=
  w.isNull = v.isNull ∧ ∀ s, k.operand? o v = some s → ∃ t, k.operand? o w = some t ∧ Q t s

theorem ActsFor.eq_null (h : ActsFor Q k o w .null) : w = .null :=
  Value.isNull_iff.1 h.1

theorem StandsFor.actsFor (h : k.StandsFor o w v) (hQ : ∀ s, Q s s) : ActsFor Q k o w v :=
  ⟨h.1, fun s hs => ⟨s, h.2 s hs, hQ s⟩⟩

theorem leaf_of_actsFor (hR : Congruence Q R) {comparison : Comparison} {negated : Bool}
    {e : Expression} (hw : ActsFor Q k o w v) (h : k.leaf column o comparison negated v = .ok e) :
    ∃ d, k.leaf column o comparison negated w = .ok d ∧ R d e := by
  cases hv : v.isNull with
  | true =>
    obtain rfl : v = .null := Value.isNull_iff.1 hv
    rw [hw.eq_null]
    exact ⟨e, h, hR.refl e⟩
  | false =>
    obtain ⟨s, hs, rfl⟩ := (leaf_eq_ok_iff hv).1 h
    obtain ⟨t, ht, hQ⟩ := hw.2 s hs
    exact ⟨_, (leaf_eq_ok_iff (hw.1.trans hv)).2 ⟨t, ht, rfl⟩, hR.compare hQ _ _ _ _⟩

theorem bound_of_actsFor {b : Option Scalar} (hw : ActsFor Q k o w v)
    (h : k.bound column o v = .ok b) : ∃ a, k.bound column o w = .ok a ∧ Option.Rel Q a b := by
  cases hv : v.isNull with
  | true =>
    obtain rfl : v = .null := Value.isNull_iff.1 hv
    obtain rfl : none = b := Except.ok.inj h
    rw [hw.eq_null]
    exact ⟨none, rfl, .none⟩
  | false =>
    obtain ⟨s, hs, rfl⟩ := (bound_eq_ok_iff hv).1 h
    obtain ⟨t, ht, hQ⟩ := hw.2 s hs
    exact ⟨some t, (bound_eq_ok_iff (hw.1.trans hv)).2 ⟨t, ht, rfl⟩, .some hQ⟩

theorem range_of_actsFor (hR : Congruence Q R) {f : Value → Value} {low high : Value}
    {e : Expression} (hlow : ActsFor Q k o (f low) low) (hhigh : ActsFor Q k o (f high) high)
    (h : k.range column o low high = .ok e) :
    ∃ d, k.range column o (f low) (f high) = .ok d ∧ R d e := by
  obtain ⟨a, ha, b, hb, rfl⟩ := range_eq_ok_iff.1 h
  obtain ⟨a', ha', hQa⟩ := bound_of_actsFor hlow ha
  obtain ⟨b', hb', hQb⟩ := bound_of_actsFor hhigh hb
  refine ⟨_, range_eq_ok_iff.2 ⟨a', ha', b', hb', rfl⟩, ?_⟩
  cases hQa with
  | none => exact hR.refl _
  | some hlow =>
    cases hQb with
    | none => exact hR.refl _
    | some hhigh => exact hR.between hlow hhigh _ _ _

/-- Operands that act for those of a condition make its comparator a related expression. -/
theorem bind_of_actsFor (hR : Congruence Q R) {f : Value → Value} {values : List Value}
    {e : Expression} (hf : ∀ v ∈ values, ActsFor Q k o (f v) v)
    (h : k.bind column o values = .ok e) : ∃ d, k.bind column o (values.map f) = .ok d ∧ R d e := by
  rw [bind_eq_ok_iff] at h
  obtain ⟨ha, hs, h⟩ := h
  rw [← List.length_map f] at ha
  cases hc : o.comparison? with
  | some p =>
    obtain ⟨comparison, negated⟩ := p
    rw [hc] at h
    obtain ⟨es, hes, rfl⟩ := h
    obtain ⟨ds, hds, hall⟩ := mapM_forall₂ hes fun v hv _ => leaf_of_actsFor hR (hf v hv)
    refine ⟨.all ds, bind_eq_ok_iff.2 ⟨ha, hs, ?_⟩, hR.all hall⟩
    rw [hc]
    exact ⟨ds, hds, rfl⟩
  | none =>
    rw [hc] at h
    obtain ⟨low, high, rfl, h⟩ := h
    obtain ⟨d, hd, hd'⟩ := range_of_actsFor hR (hf low (by simp)) (hf high (by simp)) h
    refine ⟨d, bind_eq_ok_iff.2 ⟨ha, hs, ?_⟩, hd'⟩
    rw [hc]
    exact ⟨f low, f high, rfl, hd⟩

end Comparator

/-- The comparator of the field decides which operands act for others. -/
theorem Condition.bind_mapOperands (hR : Congruence Q R) {c : Condition} {schema : Schema}
    {defaultFormat : DateFormat} {e : Expression} {f : Value → Value}
    (hnull : ∀ v ∈ c.values, (f v).isNull = v.isNull)
    (hf : ∀ target k, Target.find schema c.field = .ok target →
      target.comparator? c.case (c.format.getD defaultFormat) = .ok (some k) →
      ∀ v ∈ c.values, Comparator.ActsFor Q k c.operation (f v) v)
    (h : c.bind schema defaultFormat = .ok e) :
    ∃ d, (c.mapOperands f).bind schema defaultFormat = .ok d ∧ R d e := by
  obtain ⟨target, htarget, k?, hk, h⟩ := bind_eq_ok_iff.1 h
  cases k? with
  | none =>
    refine ⟨e, bind_eq_ok_iff.2 ⟨target, htarget, none, hk, ?_⟩, hR.refl e⟩
    exact bindNull_of_isNull hnull h
  | some k =>
    obtain ⟨d, hd, hd'⟩ := Comparator.bind_of_actsFor hR (hf target k htarget hk) h
    exact ⟨d, bind_eq_ok_iff.2 ⟨target, htarget, some k, hk, hd⟩, hd'⟩

end Operands

/-- The first condition is bound where the second one is, and to an expression of the same rows. -/
def Condition.Replaces (d : Condition) (schema : Schema) (format : DateFormat) (c : Condition) :
    Prop :=
  ∀ e, c.bind schema format = .ok e → ∃ b, d.bind schema format = .ok b ∧ b.Equivalent e

namespace Node

variable {schema : Schema} {format : DateFormat} {g : Condition → Condition}

theorem combine?_of_equivalent {connective : Connective} {ds es : List Expression}
    (h : List.Forall₂ Expression.Equivalent ds es) :
    Option.Rel Expression.Equivalent (connective.combine? ds) (connective.combine? es) := by
  cases h with
  | nil => exact .none
  | cons hfirst hrest =>
    cases connective with
    | and => exact .some (Expression.equivalent_all (.cons hfirst hrest))
    | or => exact .some (Expression.equivalent_any (.cons hfirst hrest))

theorem forall₂_toList {a b : Option Expression} (h : Option.Rel Expression.Equivalent a b) :
    List.Forall₂ Expression.Equivalent a.toList b.toList := by
  cases h with
  | none => exact .nil
  | some h => exact .cons h .nil

mutual

/-- Conditions that replace those of a node make a plan of the same rows. -/
theorem plan_mapConditions_of_replaces : ∀ (n : Node) {o : Option Expression},
    (∀ c ∈ leaves n, (g c).Replaces schema format c) → plan schema format n = .ok o →
    ∃ p, plan schema format (mapConditions g n) = .ok p ∧ Option.Rel Expression.Equivalent p o
  | condition c, o, hg, h => by
    obtain ⟨e, he, rfl⟩ := plan_condition_ok_iff.1 h
    obtain ⟨b, hb, heq⟩ := forall_leaves_condition.1 hg e he
    exact ⟨some b, plan_condition_ok_iff.2 ⟨b, hb, rfl⟩, .some heq⟩
  | group connective children, o, hg, h => by
    obtain ⟨es, hes, rfl⟩ := plan_group_ok_iff.1 h
    obtain ⟨ds, hds, heq⟩ := planChildren_mapChildren_of_replaces children hg hes
    exact ⟨_, plan_group_ok_iff.2 ⟨ds, hds, rfl⟩, combine?_of_equivalent heq⟩

theorem planChildren_mapChildren_of_replaces : ∀ (ns : List Node) {es : List Expression},
    (∀ c ∈ leavesOf ns, (g c).Replaces schema format c) → planChildren schema format ns = .ok es →
    ∃ ds, planChildren schema format (mapChildren g ns) = .ok ds ∧
      List.Forall₂ Expression.Equivalent ds es
  | [], es, _, h => by
    obtain rfl : [] = es := Except.ok.inj h
    exact ⟨[], rfl, .nil⟩
  | child :: rest, es, hg, h => by
    obtain ⟨hfirst, hrest⟩ := forall_leavesOf_cons.1 hg
    obtain ⟨o, ho, others, hothers, rfl⟩ := planChildren_cons_ok_iff.1 h
    obtain ⟨p, hp, heq⟩ := plan_mapConditions_of_replaces child hfirst ho
    obtain ⟨ds, hds, hall⟩ := planChildren_mapChildren_of_replaces rest hrest hothers
    refine ⟨p.toList ++ ds, planChildren_cons_ok_iff.2 ⟨p, hp, ds, hds, rfl⟩, ?_⟩
    exact List.rel_append (forall₂_toList heq) hall

end

end Node

/-- **A plan depends on its conditions only through the rows of each.** -/
theorem Search.plan_mapConditions_of_replaces {s : Search} {schema : Schema} {e : Expression}
    {g : Condition → Condition} (hg : ∀ c ∈ s.leaves, (g c).Replaces schema s.format c)
    (h : s.plan schema = .ok e) :
    ∃ d, (s.mapConditions g).plan schema = .ok d ∧ d.Equivalent e := by
  obtain ⟨o, ho, rfl⟩ := map_ok_iff.1 h
  obtain ⟨p, hp, heq⟩ := Node.plan_mapConditions_of_replaces s.root hg ho
  refine ⟨_, map_ok_iff.2 ⟨p, hp, rfl⟩, ?_⟩
  cases heq with
  | none => exact .refl _
  | some heq => exact heq

end RecordSearch
