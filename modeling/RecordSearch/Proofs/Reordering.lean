import RecordSearch.Proofs.Congruence
import RecordSearch.Proofs.Filtering
import RecordSearch.Proofs.Rewriting

/-!
The order of children and of operands. It decides which fault of a search is reported, and the
clauses of its plan stand in it, but not whether there is a plan and which rows satisfy it.

* `Expression.Interchangeable`: lists of clauses that combine to the same truth;
* `Node.planChildren_of_anywhere_shuffled`: what one reordering does to the clauses of a group;
* `Search.evaluate_eq_of_shuffled`: reordered searches select the same records.
-/

namespace RecordSearch

theorem mapM_perm {ε α β : Type} {f : α → Except ε β} {as as' : List α} {bs : List β}
    (h : as.Perm as') (hbs : as.mapM f = .ok bs) :
    ∃ bs', as'.mapM f = .ok bs' ∧ bs'.Perm bs := by
  induction h generalizing bs with
  | nil => exact ⟨bs, hbs, .refl _⟩
  | cons a _ ih =>
    obtain ⟨b, hb, others, hothers, rfl⟩ := mapM_cons_ok_iff.1 hbs
    obtain ⟨others', hothers', hperm⟩ := ih hothers
    exact ⟨b :: others', mapM_cons_ok_iff.2 ⟨b, hb, others', hothers', rfl⟩, hperm.cons b⟩
  | swap a a' rest =>
    obtain ⟨b', hb', others, hothers, rfl⟩ := mapM_cons_ok_iff.1 hbs
    obtain ⟨b, hb, others', hothers', rfl⟩ := mapM_cons_ok_iff.1 hothers
    have hrest : (a' :: rest).mapM f = .ok (b' :: others') :=
      mapM_cons_ok_iff.2 ⟨b', hb', others', hothers', rfl⟩
    exact ⟨b :: b' :: others', mapM_cons_ok_iff.2 ⟨b, hb, _, hrest, rfl⟩, .swap b' b others'⟩
  | trans _ _ ihfirst ihsecond =>
    obtain ⟨cs, hcs, hperm⟩ := ihfirst hbs
    obtain ⟨ds, hds, hperm'⟩ := ihsecond hcs
    exact ⟨ds, hds, hperm'.trans hperm⟩

namespace Expression

/-- Either connective makes the same truth of the two lists. -/
structure Interchangeable (ds es : List Expression) : Prop where
  nil_iff : ds = [] ↔ es = []
  all (row : Row) : ds.all (evaluate row) = es.all (evaluate row)
  any (row : Row) : ds.any (evaluate row) = es.any (evaluate row)

namespace Interchangeable

variable {ds es ds' es' : List Expression}

theorem refl (es : List Expression) : Interchangeable es es :=
  ⟨Iff.rfl, fun _ => rfl, fun _ => rfl⟩

theorem trans {fs : List Expression} (h : Interchangeable ds es) (h' : Interchangeable es fs) :
    Interchangeable ds fs :=
  ⟨h.nil_iff.trans h'.nil_iff, fun row => (h.all row).trans (h'.all row),
    fun row => (h.any row).trans (h'.any row)⟩

theorem of_perm (h : ds.Perm es) : Interchangeable ds es :=
  ⟨by rw [← List.perm_nil, ← List.perm_nil]; exact ⟨h.symm.trans, h.trans⟩,
    fun _ => h.all_eq, fun _ => h.any_eq⟩

theorem singleton {d e : Expression} (h : d.Equivalent e) : Interchangeable [d] [e] :=
  ⟨by simp, fun row => by simp [h row], fun row => by simp [h row]⟩

theorem append (h : Interchangeable ds es) (h' : Interchangeable ds' es') :
    Interchangeable (ds ++ ds') (es ++ es') := by
  refine ⟨?_, fun row => ?_, fun row => ?_⟩
  · rw [List.append_eq_nil_iff, List.append_eq_nil_iff, h.nil_iff, h'.nil_iff]
  · rw [List.all_append, List.all_append, h.all, h'.all]
  · rw [List.any_append, List.any_append, h.any, h'.any]

theorem combine (h : Interchangeable ds es) (connective : Connective) :
    (connective.combine ds).Equivalent (connective.combine es) := by
  intro row
  cases connective with
  | and => rw [Connective.combine, Connective.combine, evaluate_all, evaluate_all, h.all]
  | or => rw [Connective.combine, Connective.combine, evaluate_any, evaluate_any, h.any]

/-- Both lists make a clause, or neither does. -/
theorem combine? (h : Interchangeable ds es) (connective : Connective) :
    Option.Rel Equivalent (connective.combine? ds) (connective.combine? es) := by
  have hcombine := h.combine connective
  cases ds with
  | nil =>
    obtain rfl := h.nil_iff.1 rfl
    exact .none
  | cons d ds =>
    cases es with
    | nil => exact absurd (h.nil_iff.2 rfl) (List.cons_ne_nil d ds)
    | cons e es => exact .some hcombine

end Interchangeable

theorem interchangeable_toList {a b : Option Expression} (h : Option.Rel Equivalent a b) :
    Interchangeable a.toList b.toList := by
  cases h with
  | none => exact .refl []
  | some h => exact .singleton h

theorem equivalent_getD {a b : Option Expression} (h : Option.Rel Equivalent a b) {e : Expression} :
    (a.getD e).Equivalent (b.getD e) := by
  cases h with
  | none => exact .refl e
  | some h => exact h

end Expression

/-- A condition with its operands in another order. -/
theorem Condition.replaces_of_perm {c : Condition} {values : List Value} {p : Comparison × Bool}
    (hc : c.operation.comparison? = some p) (h : c.values.Perm values) (schema : Schema)
    (format : DateFormat) : Condition.Replaces { c with values } schema format c := by
  intro e he
  have hne : c.values ≠ [] := Operation.ne_nil_of_accepts (hasArity_of_bind he)
  have hne' : values ≠ [] := by
    rintro rfl
    exact hne h.eq_nil
  rw [bind_eq_mapM hc hne] at he
  obtain ⟨es, hes, rfl⟩ := map_ok_iff.1 he
  obtain ⟨ds, hds, hperm⟩ := mapM_perm h hes
  refine ⟨.all ds, ?_, (Expression.Interchangeable.of_perm hperm).combine .and⟩
  rw [bind_eq_mapM (c := { c with values }) hc hne']
  exact map_ok_iff.2 ⟨ds, hds, rfl⟩

namespace Node

variable {R : List Node → List Node → Prop} {schema : Schema} {format : DateFormat}
  {old new : List Node}

/-- Reorderings of the children of a group, and of the operands of a condition that is no range. -/
inductive Shuffled : List Node → List Node → Prop
  | children {old new : List Node} (h : old.Perm new) : Shuffled old new
  | operands (c : Condition) (values : List Value) (rest : List Node)
      (hbetween : c.operation ≠ .between) (hnotBetween : c.operation ≠ .notBetween)
      (h : c.values.Perm values) :
      Shuffled (condition c :: rest) (condition { c with values } :: rest)

theorem Shuffled.symm (h : Shuffled old new) : Shuffled new old := by
  cases h with
  | children h => exact .children h.symm
  | operands c values rest hbetween hnotBetween h =>
    exact .operands { c with values } c.values rest hbetween hnotBetween h.symm

theorem Anywhere.symm (hR : ∀ {old new}, R old new → R new old) (h : Anywhere R old new) :
    Anywhere R new old := by
  induction h with
  | here h => exact .here (hR h)
  | after first _ ih => exact .after first ih
  | inside connective rest _ ih => exact .inside connective rest ih

theorem planChildren_eq_mapM (ns : List Node) : planChildren schema format ns =
    (ns.mapM (plan schema format)).map (List.flatMap Option.toList) := by
  induction ns with
  | nil => rfl
  | cons n rest ih =>
    rw [planChildren, List.mapM_cons, ih]
    cases plan schema format n with
    | error err => rfl
    | ok o => cases rest.mapM (plan schema format) <;> rfl

theorem planChildren_of_perm {ds : List Expression} (h : old.Perm new)
    (hds : planChildren schema format old = .ok ds) :
    ∃ es, planChildren schema format new = .ok es ∧ es.Perm ds := by
  rw [planChildren_eq_mapM] at hds
  obtain ⟨os, hos, rfl⟩ := map_ok_iff.1 hds
  obtain ⟨os', hos', hperm⟩ := mapM_perm h hos
  refine ⟨_, ?_, hperm.flatMap_right Option.toList⟩
  rw [planChildren_eq_mapM, map_ok_iff]
  exact ⟨os', hos', rfl⟩

open Expression (Interchangeable interchangeable_toList)

theorem planChildren_of_shuffled {ds : List Expression} (h : Shuffled old new)
    (hds : planChildren schema format old = .ok ds) :
    ∃ es, planChildren schema format new = .ok es ∧ Interchangeable es ds := by
  cases h with
  | children h =>
    obtain ⟨es, hes, hperm⟩ := planChildren_of_perm h hds
    exact ⟨es, hes, .of_perm hperm⟩
  | operands c values rest hbetween hnotBetween h =>
    obtain ⟨p, hc⟩ := Operation.exists_comparison? hbetween hnotBetween
    obtain ⟨o, ho, others, hothers, rfl⟩ := planChildren_cons_ok_iff.1 hds
    obtain ⟨e, he, rfl⟩ := plan_condition_ok_iff.1 ho
    obtain ⟨d, hd, hequivalent⟩ := Condition.replaces_of_perm hc h schema format e he
    have hfirst : plan schema format (condition { c with values }) = .ok (some d) :=
      plan_condition_ok_iff.2 ⟨d, hd, rfl⟩
    exact ⟨_, planChildren_cons_ok_iff.2 ⟨_, hfirst, others, hothers, rfl⟩,
      (Interchangeable.singleton hequivalent).append (.refl others)⟩

theorem planChildren_of_anywhere_shuffled {ds : List Expression} (h : Anywhere Shuffled old new)
    (hds : planChildren schema format old = .ok ds) :
    ∃ es, planChildren schema format new = .ok es ∧ Interchangeable es ds := by
  induction h generalizing ds with
  | here h => exact planChildren_of_shuffled h hds
  | after first _ ih =>
    obtain ⟨o, ho, others, hothers, rfl⟩ := planChildren_cons_ok_iff.1 hds
    obtain ⟨others', hothers', hinter⟩ := ih hothers
    exact ⟨_, planChildren_cons_ok_iff.2 ⟨o, ho, others', hothers', rfl⟩,
      (Interchangeable.refl o.toList).append hinter⟩
  | @inside connective rest old new _ ih =>
    obtain ⟨o, ho, others, hothers, rfl⟩ := planChildren_cons_ok_iff.1 hds
    obtain ⟨fs, hfs, rfl⟩ := plan_group_ok_iff.1 ho
    obtain ⟨fs', hfs', hinter⟩ := ih hfs
    have hfirst : plan schema format (group connective new) = .ok (connective.combine? fs') :=
      plan_group_ok_iff.2 ⟨fs', hfs', rfl⟩
    exact ⟨_, planChildren_cons_ok_iff.2 ⟨_, hfirst, others, hothers, rfl⟩,
      (interchangeable_toList (hinter.combine? connective)).append (.refl others)⟩

theorem planChildren_of_rewrites_shuffled {ds : List Expression}
    (h : Relation.ReflTransGen (Anywhere Shuffled) old new)
    (hds : planChildren schema format old = .ok ds) :
    ∃ es, planChildren schema format new = .ok es ∧ Interchangeable es ds := by
  induction h with
  | refl => exact ⟨ds, hds, .refl ds⟩
  | tail _ step ih =>
    obtain ⟨es, hes, hinter⟩ := ih
    obtain ⟨fs, hfs, hinter'⟩ := planChildren_of_anywhere_shuffled step hes
    exact ⟨fs, hfs, hinter'.trans hinter⟩

end Node

namespace Search

theorem Rewrites.symm {R : List Node → List Node → Prop}
    (hR : ∀ {old new}, R old new → R new old) {s t : Search} (h : s.Rewrites R t) :
    t.Rewrites R s :=
  ⟨h.connective.symm, h.format.symm,
    Relation.ReflTransGen.mono (fun _ _ h => h.symm hR) _ _ h.children.swap⟩

/-- A reordered search has a plan where the search has one, and of the same rows. -/
theorem plan_of_shuffled {s t : Search} {schema : Schema} {d : Expression}
    (h : s.Rewrites Node.Shuffled t) (hd : s.plan schema = .ok d) :
    ∃ e, t.plan schema = .ok e ∧ e.Equivalent d := by
  obtain ⟨o, ho, rfl⟩ := map_ok_iff.1 hd
  obtain ⟨ds, hds, rfl⟩ := Node.plan_group_ok_iff.1 ho
  obtain ⟨es, hes, hinter⟩ := Node.planChildren_of_rewrites_shuffled h.children hds
  refine ⟨(s.connective.combine? es).getD (.literal true), ?_, ?_⟩
  · rw [plan, constraint, root, h.connective, h.format, map_ok_iff]
    exact ⟨_, Node.plan_group_ok_iff.2 ⟨es, hes, rfl⟩, rfl⟩
  · exact Expression.equivalent_getD (hinter.combine? s.connective)

/-- **The order of a search does not count.** Let the children of any groups and the operands of any
conditions that are no ranges be reordered. Then there is a plan for both searches or for neither,
and the plans accept the same rows, so both filters keep the same records in the same order. -/
theorem evaluate_eq_of_shuffled {s t : Search} (h : s.Rewrites Node.Shuffled t) (schema : Schema) :
    ((∃ d, s.plan schema = .ok d) ↔ ∃ e, t.plan schema = .ok e) ∧
      ∀ d e, s.plan schema = .ok d → t.plan schema = .ok e →
        (∀ row, d.evaluate row = e.evaluate row) ∧
          ∀ (α : Type) (row : α → Row) (records : List α), ∃ matched,
            s.filter schema row records = .ok matched ∧
              t.filter schema row records = .ok matched := by
  refine ⟨⟨?_, ?_⟩, ?_⟩
  · rintro ⟨d, hd⟩
    obtain ⟨e, he, -⟩ := plan_of_shuffled h hd
    exact ⟨e, he⟩
  · rintro ⟨e, he⟩
    obtain ⟨d, hd, -⟩ := plan_of_shuffled (h.symm Node.Shuffled.symm) he
    exact ⟨d, hd⟩
  · intro d e hd he
    obtain ⟨e', he', hequivalent⟩ := plan_of_shuffled h hd
    obtain rfl : e' = e := Except.ok.inj (he'.symm.trans he)
    refine ⟨fun row => (hequivalent row).symm, fun α row records => ?_⟩
    refine ⟨records.filter fun r => d.evaluate (row r), filter_of_plan hd row records, ?_⟩
    rw [filter_of_plan he]
    simp only [hequivalent (row _)]

/-- Children of the root and of a group trade places, and so do the operands of a condition. -/
theorem evaluate_eq_of_shuffled_nested :
    let schema : Schema := ⟨[⟨"FullName", .string⟩, ⟨"Tags", .list .string⟩]⟩
    let name := Condition.plain "FullName" .notContains [.text "Den", .text "Ken"]
    let tag := Condition.notEqual "Tags" (.text "new")
    let range := Condition.between "FullName" (.text "B") (.text "E")
    let s := (any.addCondition name).addGroup ((all.addCondition tag).addCondition range)
    let t := (any.addGroup ((all.addCondition range).addCondition tag)).addCondition
      (.plain "FullName" .notContains [.text "Ken", .text "Den"])
    let rows : List Row :=
      [[.text "Kenneth", .null], [.text "Dennis", .list []], [.text "Brian", .null]]
    s.Rewrites Node.Shuffled t ∧
      ∃ d e, s.plan schema = .ok d ∧ t.plan schema = .ok e ∧
        (∀ row, d.evaluate row = e.evaluate row) ∧
        ∃ matched, s.filter schema id rows = .ok matched ∧ t.filter schema id rows = .ok matched := by
  intro schema name tag range s t rows
  have h : s.Rewrites Node.Shuffled t := by
    refine ⟨rfl, rfl, ?_⟩
    refine .head (.here (.children (.swap _ _ []))) ?_
    refine .head (.inside .and _ (.here (.children (.swap _ _ [])))) ?_
    exact .single (.after _ (.here (.operands name _ [] (by decide) (by decide) (.swap _ _ []))))
  obtain ⟨hrows, hfilter⟩ := (evaluate_eq_of_shuffled h schema).2 _ _ rfl rfl
  exact ⟨h, _, _, rfl, rfl, hrows, hfilter Row id rows⟩

end Search

end RecordSearch
