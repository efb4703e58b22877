import RecordSearch.Proofs.Operands
import Mathlib.Logic.Relation

/-!
Rewriting a search. A rewrite changes siblings somewhere in the tree, and rewrites follow one another
any number of times. The rewrites here take out or put in structure that says nothing.

* `Node.planChildren_of_anywhere`: what a rewrite makes of the plan is decided where it is made;
* `Node.plan_spread`: a condition and the group of its operands have one plan;
* `Search.plan_eq_of_redundant`: redundant structure is nowhere seen in a plan or an error.
-/

namespace RecordSearch

theorem Operation.exists_comparison? {o : Operation} (hbetween : o ≠ .between)
    (hnotBetween : o ≠ .notBetween) : ∃ p, o.comparison? = some p := by
  cases o with
  | between => exact absurd rfl hbetween
  | notBetween => exact absurd rfl hnotBetween
  | _ => exact ⟨_, rfl⟩

namespace Node

/-- A rewrite `R` of siblings, made anywhere: from some child of a group on, or deeper. -/
inductive Anywhere (R : List Node → List Node → Prop) : List Node → List Node → Prop
  | here {old new : List Node} (h : R old new) : Anywhere R old new
  | after (first : Node) {old new : List Node} (h : Anywhere R old new) :
      Anywhere R (first :: old) (first :: new)
  | inside (connective : Connective) (rest : List Node) {old new : List Node}
      (h : Anywhere R old new) :
      Anywhere R (group connective old :: rest) (group connective new :: rest)

end Node

/-- The second search comes from the first by rewrites below its root. -/
structure Search.Rewrites (R : List Node → List Node → Prop) (s t : Search) : Prop where
  connective : t.connective = s.connective
  format : t.format = s.format
  children : Relation.ReflTransGen (Node.Anywhere R) s.children t.children

namespace Node

variable {R : List Node → List Node → Prop} {schema : Schema} {format : DateFormat}
  {old new : List Node}

theorem planChildren_of_anywhere
    (hR : ∀ {old new}, R old new →
      planChildren schema format new = planChildren schema format old)
    (h : Anywhere R old new) :
    planChildren schema format new = planChildren schema format old := by
  induction h with
  | here h => exact hR h
  | after first _ ih => rw [planChildren, planChildren, ih]
  | inside connective rest _ ih => rw [planChildren, planChildren, plan, plan, ih]

theorem planChildren_of_rewrites
    (hR : ∀ {old new}, R old new →
      planChildren schema format new = planChildren schema format old)
    (h : Relation.ReflTransGen (Anywhere R) old new) :
    planChildren schema format new = planChildren schema format old := by
  induction h with
  | refl => rfl
  | tail _ step ih => exact (planChildren_of_anywhere hR step).trans ih

/-- The operands of a condition as conditions of their own, all of which have to hold. -/
def spread (c : Condition) : Node := group .and (c.values.map fun v => condition (c.only v))

/-- Rewrites that change how a search is grouped and not what it asks for. -/
inductive Redundant : List Node → List Node → Prop
  /-- A group without a condition at any depth goes. -/
  | drop (connective : Connective) (children rest : List Node) (h : leafCounts children = 0) :
      Redundant (group connective children :: rest) rest
  /-- An only child takes the place of its group. -/
  | unwrap (connective : Connective) (child : Node) (rest : List Node) :
      Redundant (group connective [child] :: rest) (child :: rest)
  /-- A child gets a group of its own. -/
  | wrap (connective : Connective) (child : Node) (rest : List Node) :
      Redundant (child :: rest) (group connective [child] :: rest)
  /-- A condition that is no range becomes the group of its operands. -/
  | spread (c : Condition) (rest : List Node) (hbetween : c.operation ≠ .between)
      (hnotBetween : c.operation ≠ .notBetween) (hvalues : c.values ≠ []) :
      Redundant (condition c :: rest) (spread c :: rest)

theorem plan_of_no_leaves {connective : Connective} {children : List Node}
    (h : leafCounts children = 0) : plan schema format (group connective children) = .ok none :=
  (plan_eq_none_iff _).2 h

theorem combine?_toList (connective : Connective) (o : Option Expression) :
    connective.combine? o.toList = o := by
  cases o with
  | none => rfl
  | some e => cases connective <;> rfl

/-- A group says no more than its only child. -/
theorem plan_group_singleton (connective : Connective) (child : Node) :
    plan schema format (group connective [child]) = plan schema format child := by
  have hchildren : planChildren schema format [child] =
      (plan schema format child).map Option.toList := by
    rw [planChildren, planChildren]
    cases plan schema format child with
    | error err => rfl
    | ok o => exact congrArg Except.ok (List.append_nil _)
  rw [plan, hchildren]
  cases plan schema format child with
  | error err => rfl
  | ok o => exact congrArg Except.ok (combine?_toList connective o)

theorem planChildren_conditions (cs : List Condition) :
    planChildren schema format (cs.map condition) = cs.mapM fun c => c.bind schema format := by
  induction cs with
  | nil => rfl
  | cons c rest ih =>
    rw [List.map_cons, planChildren, plan, List.mapM_cons, ih]
    cases c.bind schema format <;> rfl

/-- Binding operand by operand is planning the group of the operands, so the first faulty operand
is found by both. -/
theorem plan_spread {c : Condition} {p : Comparison × Bool}
    (hc : c.operation.comparison? = some p) (hvalues : c.values ≠ []) :
    plan schema format (spread c) = plan schema format (condition c) := by
  have hchildren : planChildren schema format (c.values.map fun v => condition (c.only v)) =
      c.values.mapM fun v => (c.only v).bind schema format := by
    have h : planChildren schema format ((c.values.map c.only).map condition) = _ :=
      planChildren_conditions (c.values.map c.only)
    rwa [List.map_map, List.mapM_map] at h
  rw [spread, plan, plan, hchildren, Condition.bind_eq_mapM hc hvalues]
  cases hes : c.values.mapM fun v => (c.only v).bind schema format with
  | error err => rfl
  | ok es =>
    have hlength := length_of_mapM hes
    cases es with
    | nil => exact absurd (List.eq_nil_of_length_eq_zero hlength.symm) hvalues
    | cons e rest => rfl

theorem planChildren_of_redundant (h : Redundant old new) :
    planChildren schema format new = planChildren schema format old := by
  cases h with
  | drop connective children rest h =>
    rw [planChildren, plan_of_no_leaves h]
    cases planChildren schema format new <;> rfl
  | unwrap connective child rest => rw [planChildren, planChildren, plan_group_singleton]
  | wrap connective child rest => rw [planChildren, planChildren, plan_group_singleton]
  | spread c rest hbetween hnotBetween hvalues =>
    obtain ⟨p, hc⟩ := Operation.exists_comparison? hbetween hnotBetween
    rw [planChildren, planChildren, plan_spread hc hvalues]

end Node

namespace Search

/-- **A plan shows nothing of redundant structure.** Dropping groups without conditions, taking an
only child out of its group, putting a child into a group of its own and spreading the operands of
a condition over an `and`, anywhere below the root and any number of times, leaves the plan the
same expression, or the same error. -/
theorem plan_eq_of_redundant {s t : Search} (h : s.Rewrites Node.Redundant t) (schema : Schema) :
    t.plan schema = s.plan schema := by
  have hchildren : Node.planChildren schema s.format t.children =
      Node.planChildren schema s.format s.children :=
    Node.planChildren_of_rewrites Node.planChildren_of_redundant h.children
  rw [plan, plan, constraint, constraint, root, root, Node.plan, Node.plan, h.connective, h.format,
    hchildren]

/-- Every kind of rewrite, on a search whose last condition is at fault under one schema and not
under another. -/
theorem plan_eq_of_redundant_nested :
    let strict : Schema := ⟨[⟨"FullName", .string⟩, ⟨"Active", .boolean⟩]⟩
    let lenient : Schema := ⟨[⟨"FullName", .string⟩, ⟨"Active", .string⟩]⟩
    let name := Condition.plain "FullName" .contains [.text "Den", .null, .text "nis"]
    let active := Condition.equal "Active" (.text "yes")
    let s := (any.addGroup (all.addCondition name)).addGroup ((all.addGroup any).addCondition active)
    let names := ((all.addCondition (name.only (.text "Den"))).addGroup
      (any.addCondition (name.only .null))).addCondition (name.only (.text "nis"))
    let t := (any.addGroup names).addCondition active
    s.Rewrites Node.Redundant t ∧
      (t.plan strict = s.plan strict ∧
        s.plan strict = .error (.invalidOperand "Active" .equal (.text "yes"))) ∧
      ∃ e, t.plan lenient = .ok e ∧ s.plan lenient = .ok e := by
  intro strict lenient name active s names t
  have h : s.Rewrites Node.Redundant t := by
    refine ⟨rfl, rfl, ?_⟩
    refine .head (.here (.unwrap .and _ _)) ?_
    refine .head (.here (.spread name _ (by decide) (by decide) (by decide))) ?_
    refine .head (.inside .and _ (.after _ (.here (.wrap .or _ _)))) ?_
    refine .head (.after _ (.inside .and _ (.here (.drop .or [] _ rfl)))) ?_
    exact .single (.after _ (.here (.unwrap .and _ _)))
  exact ⟨h, ⟨plan_eq_of_redundant h strict, rfl⟩, _, plan_eq_of_redundant h lenient, rfl⟩

end Search

end RecordSearch
