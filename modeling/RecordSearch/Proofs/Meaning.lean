import RecordSearch.Clause.Evaluation
import RecordSearch.Plan.Search
import RecordSearch.Proofs.Result

/-!
The meaning of a search without a plan: a tree of conditions holds of a row when its connectives
say so of the meanings of its conditions. Children without any condition below them count neither
way.

* `plan_eq_none_iff`: exactly the nodes without a condition have no expression;
* `bind_of_plan`: a node has a plan only if each of its conditions binds;
* `evaluate_plan_eq_holds`: the planned expression accepts the rows of which the search holds.
-/

namespace RecordSearch

/-- Whether the row satisfies the condition, taken alone; one that does not bind has no such row. -/
def Condition.holds (schema : Schema) (format : DateFormat) (row : Row) (c : Condition) : Bool :=
  match c.bind schema format with
  | .ok e => e.evaluate row
  | .error _ => false

namespace Node

mutual

/-- The truth of a node, from the truth of its conditions. -/
def holds (leaf : Condition → Bool) : Node → Bool
  | condition c => leaf c
  | group .and children => allHold leaf children
  | group .or children => someHold leaf children

def allHold (leaf : Condition → Bool) : List Node → Bool
  | [] => true
  | child :: rest => (leafCount child == 0 || holds leaf child) && allHold leaf rest

def someHold (leaf : Condition → Bool) : List Node → Bool
  | [] => false
  | child :: rest => (leafCount child != 0 && holds leaf child) || someHold leaf rest

end

variable {leaf : Condition → Bool}

theorem holds_and_iff {children : List Node} :
    holds leaf (group .and children) = true ↔
      ∀ child ∈ children, leafCount child ≠ 0 → holds leaf child = true := by
  rw [holds]
  induction children with
  | nil => simp [allHold]
  | cons child rest ih => simp [allHold, ih, Decidable.or_iff_not_imp_left]

theorem holds_or_iff {children : List Node} :
    holds leaf (group .or children) = true ↔
      ∃ child ∈ children, leafCount child ≠ 0 ∧ holds leaf child = true := by
  rw [holds]
  induction children with
  | nil => simp [someHold]
  | cons child rest ih => simp [someHold, ih]

end Node

/-- The truth of a search. One without any condition is true, whatever its connective. -/
def Search.holds (leaf : Condition → Bool) (s : Search) : Bool :=
  s.leafCount == 0 || s.root.holds leaf

namespace Node

variable {schema : Schema} {format : DateFormat} {row : Row}

theorem plan_condition_ok_iff {c : Condition} {o : Option Expression} :
    plan schema format (condition c) = .ok o ↔ ∃ e, c.bind schema format = .ok e ∧ some e = o := by
  rw [plan, map_ok_iff]

theorem plan_group_ok_iff {connective : Connective} {children : List Node}
    {o : Option Expression} :
    plan schema format (group connective children) = .ok o ↔
      ∃ es, planChildren schema format children = .ok es ∧ connective.combine? es = o := by
  rw [plan, map_ok_iff]

theorem planChildren_cons_ok_iff {child : Node} {rest : List Node} {es : List Expression} :
    planChildren schema format (child :: rest) = .ok es ↔
      ∃ first, plan schema format child = .ok first ∧
        ∃ others, planChildren schema format rest = .ok others ∧ first.toList ++ others = es := by
  rw [planChildren]
  simp only [bind_ok_iff, pure, Except.pure, Except.ok.injEq]

theorem combine?_eq_none_iff {connective : Connective} {es : List Expression} :
    connective.combine? es = none ↔ es = [] := by
  cases es <;> simp [Connective.combine?]

mutual

theorem plan_eq_none_iff : ∀ n : Node, plan schema format n = .ok none ↔ leafCount n = 0
  | condition c => by simp [plan_condition_ok_iff, leafCount]
  | group connective children => by
    rw [plan_group_ok_iff, leafCount, ← planChildren_eq_nil_iff children]
    simp [combine?_eq_none_iff]

theorem planChildren_eq_nil_iff :
    ∀ ns : List Node, planChildren schema format ns = .ok [] ↔ leafCounts ns = 0
  | [] => by simp [planChildren, leafCounts]
  | child :: rest => by
    rw [planChildren_cons_ok_iff, leafCounts, Nat.add_eq_zero_iff, ← plan_eq_none_iff child,
      ← planChildren_eq_nil_iff rest]
    simp

end

mutual

theorem bind_of_plan : ∀ (n : Node) {o : Option Expression}, plan schema format n = .ok o →
    ∀ c ∈ leaves n, ∃ e, c.bind schema format = .ok e
  | condition c, o, h => by
    obtain ⟨e, he, -⟩ := plan_condition_ok_iff.1 h
    exact forall_leaves_condition.2 ⟨e, he⟩
  | group _ children, o, h => by
    obtain ⟨es, hes, -⟩ := plan_group_ok_iff.1 h
    rw [leaves]
    exact bind_of_planChildren children hes

theorem bind_of_planChildren : ∀ (ns : List Node) {es : List Expression},
    planChildren schema format ns = .ok es →
    ∀ c ∈ leavesOf ns, ∃ e, c.bind schema format = .ok e
  | [], _, _ => by simp [leavesOf]
  | child :: rest, es, h => by
    obtain ⟨first, hfirst, others, hothers, -⟩ := planChildren_cons_ok_iff.1 h
    exact forall_leavesOf_cons.2 ⟨bind_of_plan child hfirst, bind_of_planChildren rest hothers⟩

end

mutual

theorem evaluate_of_plan : ∀ (n : Node) {e : Expression}, plan schema format n = .ok (some e) →
    e.evaluate row = holds (Condition.holds schema format row) n
  | condition c, e, h => by
    obtain ⟨e', he, hee⟩ := plan_condition_ok_iff.1 h
    obtain rfl := Option.some.inj hee
    simp only [holds, Condition.holds, he]
  | group connective children, e, h => by
    obtain ⟨es, hes, he⟩ := plan_group_ok_iff.1 h
    obtain ⟨hall, hany⟩ := evaluate_of_planChildren children hes
    have hc : e = connective.combine es := by
      cases es with
      | nil => simp [Connective.combine?] at he
      | cons => exact (Option.some.inj he).symm
    subst hc
    cases connective with
    | and => rw [holds, Connective.combine, Expression.evaluate_all, hall]
    | or => rw [holds, Connective.combine, Expression.evaluate_any, hany]

/-- A child without a plan has no condition below it, so it is neutral on both sides. -/
theorem evaluate_of_planChildren : ∀ (ns : List Node) {es : List Expression},
    planChildren schema format ns = .ok es →
    es.all (Expression.evaluate row) = allHold (Condition.holds schema format row) ns ∧
      es.any (Expression.evaluate row) = someHold (Condition.holds schema format row) ns
  | [], es, h => by
    obtain rfl : [] = es := by simpa [planChildren] using h
    exact ⟨rfl, rfl⟩
  | child :: rest, es, h => by
    obtain ⟨first, hfirst, others, hothers, rfl⟩ := planChildren_cons_ok_iff.1 h
    obtain ⟨hall, hany⟩ := evaluate_of_planChildren rest hothers
    rw [allHold, someHold, ← hall, ← hany]
    cases first with
    | none => simp [(plan_eq_none_iff child).1 hfirst]
    | some e =>
      have hcount : (leafCount child == 0) = false := by
        rw [beq_eq_false_iff_ne]
        intro hzero
        simpa using hfirst.symm.trans ((plan_eq_none_iff child).2 hzero)
      simp [evaluate_of_plan child hfirst, hcount, bne]

end

end Node

namespace Search

/-- **A plan means what the tree says.** If a search has a plan, each of its conditions binds, and
the planned expression accepts a row exactly when the search holds of it. A node has no expression
exactly when it has no condition. -/
theorem evaluate_plan_eq_holds (schema : Schema) (s : Search) (row : Row) :
    (∀ e, s.plan schema = .ok e →
      (∀ c ∈ s.leaves, ∃ b, c.bind schema s.format = .ok b) ∧
        e.evaluate row = s.holds (Condition.holds schema s.format row)) ∧
      ∀ n : Node, n.plan schema s.format = .ok none ↔ n.leafCount = 0 := by
  refine ⟨?_, Node.plan_eq_none_iff⟩
  intro e h
  rw [plan, map_ok_iff] at h
  obtain ⟨o, ho, he⟩ := h
  refine ⟨Node.bind_of_plan s.root ho, ?_⟩
  cases o with
  | none =>
    obtain rfl : Expression.literal true = e := he
    have hcount : s.leafCount = 0 := (Node.plan_eq_none_iff s.root).1 ho
    simp [holds, hcount, Expression.evaluate]
  | some e' =>
    obtain rfl : e' = e := he
    have hcount : s.leafCount ≠ 0 := by
      intro hzero
      simpa using ho.symm.trans ((Node.plan_eq_none_iff s.root).2 hzero)
    simp [holds, hcount, Node.evaluate_of_plan s.root ho]

/-- An empty `or` under an `and` is left out of it, where a false one would decide it. -/
theorem evaluate_plan_eq_holds_around_empty :
    let schema : Schema := ⟨[⟨"FullName", .string⟩]⟩
    let den := Condition.contains "FullName" (.text "Den")
    let s := (any.addGroup all).addGroup ((all.addCondition den).addGroup any)
    ∃ e, s.plan schema = .ok e ∧ e.evaluate [.text "Dennis"] = true ∧
      e.evaluate [.text "Dennis"] =
        s.holds (Condition.holds schema s.format [.text "Dennis"]) :=
  ⟨_, rfl, rfl, ((evaluate_plan_eq_holds _ _ _).1 _ rfl).2⟩

end Search

end RecordSearch
