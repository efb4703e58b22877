import RecordSearch.Proofs.Congruence
import RecordSearch.Proofs.DateText
import RecordSearch.Proofs.RoundTrip

/-!
Planning a search that comes back from its encoded form. Dates and members come back as texts, and
the comparator of a field takes them for the same scalars, under the format in which they were
written.

* `Condition.bind_reread`: a condition is bound to the same expression as before;
* `Search.plan_ofJson_json`: a search with a plan has the same plan when it comes back.
-/

namespace RecordSearch

/-- The operands that come back as themselves or as texts. -/
def Value.isPlain : Value → Bool
  | number _ => false
  | list _ => false
  | _ => true

namespace Value

variable {format : DateFormat} {v : Value}

theorem isEncodable_of_isPlain (h : v.isPlain = true) : v.isEncodable = true := by
  cases v <;> first | rfl | cases h

theorem isNull_reread : (v.reread format).isNull = v.isNull := by
  cases v <;> rfl

end Value

/-- An instant is written in the format in which its field compares, and a complete text in that
format is taken as it is. A member is written without the name of its type, which is checked if it
is there. -/
theorem Comparator.standsFor_reread {k : Comparator} {o : Operation} {format : DateFormat}
    {v : Value} (hformat : ∀ f, k = .date f → f = format) (hv : v.isPlain = true) :
    k.StandsFor o (v.reread format) v := by
  refine ⟨Value.isNull_reread, ?_⟩
  intro s hs
  cases v with
  | null | boolean | text => exact hs
  | number | list => cases hv
  | instant t =>
    cases k with
    | date f =>
      obtain rfl := hformat f rfl
      rw [Value.reread, operand?, DateFormat.accepts_render, Bool.or_true, if_pos rfl]
      exact hs
    | string | number | boolean | enumerated => cases hs
  | member enumName m =>
    cases k with
    | enumerated type =>
      rw [operand?] at hs
      split at hs
      · exact hs
      · cases hs
    | string | number | boolean | date => cases hs

theorem Target.eq_of_comparator?_date {t : Target} {mode : CaseMode} {format f : DateFormat}
    (h : t.comparator? mode format = .ok (some (.date f))) : f = format := by
  rw [comparator?] at h
  cases hk : t.kind with
  | date =>
    rw [hk] at h
    cases h
    rfl
  | null | string | boolean =>
    rw [hk] at h
    cases h
  | number | enumerated =>
    rw [hk] at h
    simp only at h
    split at h <;> cases h

namespace Condition

variable {c : Condition} {schema : Schema} {defaultFormat : DateFormat} {e : Expression}

theorem bind_reread (hv : ∀ v ∈ c.values, v.isPlain = true)
    (h : c.bind schema defaultFormat = .ok e) :
    (c.reread defaultFormat).bind schema defaultFormat = .ok e := by
  have hf : ∀ target k, Target.find schema c.field = .ok target →
      target.comparator? c.case (c.format.getD defaultFormat) = .ok (some k) →
      ∀ v ∈ c.values, Comparator.ActsFor Eq k c.operation
        (v.reread (c.format.getD defaultFormat)) v := by
    intro target k _ hk v hmem
    apply Comparator.StandsFor.actsFor _ fun _ => rfl
    apply Comparator.standsFor_reread _ (hv v hmem)
    rintro f rfl
    exact Target.eq_of_comparator?_date hk
  obtain ⟨d, hd, rfl⟩ := bind_mapOperands congruence_eq (fun v _ => Value.isNull_reread) hf h
  exact hd

end Condition

namespace Node

variable {schema : Schema} {format : DateFormat} {g : Condition → Condition}

mutual

/-- A plan depends on its conditions only through what they are bound to. -/
theorem plan_mapConditions : ∀ n : Node,
    (∀ c ∈ leaves n, (g c).bind schema format = c.bind schema format) →
    plan schema format (mapConditions g n) = plan schema format n
  | condition c, h => by rw [mapConditions, plan, plan, forall_leaves_condition.1 h]
  | group connective children, h => by
    rw [mapConditions, plan, plan, planChildren_mapChildren children h]

theorem planChildren_mapChildren : ∀ ns : List Node,
    (∀ c ∈ leavesOf ns, (g c).bind schema format = c.bind schema format) →
    planChildren schema format (mapChildren g ns) = planChildren schema format ns
  | [], _ => rfl
  | child :: rest, h => by
    obtain ⟨hfirst, hrest⟩ := forall_leavesOf_cons.1 h
    rw [mapChildren, planChildren, planChildren, plan_mapConditions child hfirst,
      planChildren_mapChildren rest hrest]

end

end Node

namespace Search

/-- **An encoded search has the plan of the search.** If a search over nulls, truth values, texts,
instants and members has a plan, then the encoded search is read without an error and has the
same plan. -/
theorem plan_ofJson_json {s : Search} {schema : Schema} {e : Expression}
    (hv : ∀ c ∈ s.leaves, ∀ v ∈ c.values, v.isPlain = true) (h : s.plan schema = .ok e) :
    ∃ t, ofJson s.json = .ok t ∧ t.plan schema = .ok e := by
  have hbind : ∀ c ∈ s.leaves, ∃ b, c.bind schema s.format = .ok b := by
    obtain ⟨o, ho, -⟩ := map_ok_iff.1 h
    exact Node.bind_of_plan s.root ho
  have harity : ∀ c ∈ s.leaves, c.HasArity := by
    intro c hc
    obtain ⟨b, hb⟩ := hbind c hc
    exact Condition.hasArity_of_bind hb
  refine ⟨_, ofJson_json_of_isEncodable harity fun c hc v hmem =>
    Value.isEncodable_of_isPlain (hv c hc v hmem), ?_⟩
  have hroot : Node.plan schema s.format (s.root.mapConditions (Condition.reread s.format)) =
      Node.plan schema s.format s.root := by
    apply Node.plan_mapConditions
    intro c hc
    obtain ⟨b, hb⟩ := hbind c hc
    rw [hb, Condition.bind_reread (hv c hc) hb]
  rw [← h, plan, plan, constraint, constraint, ← hroot]
  rfl

/-- A leap second before year zero, in a coarse format of its own and in that of the search, and a
member in other letters than it was declared in. -/
theorem plan_ofJson_json_nested :
    let schema : Schema := ⟨[⟨"Hired", .dateTime⟩,
      ⟨"Status", .optional (.enum ⟨"Status", ["Open", "Closed"]⟩)⟩]⟩
    let leap : Timestamp := ⟨⟨⟨-1, 6, 30, by decide, by decide, by decide, by decide⟩, 86399,
      1500000000, by decide, by decide⟩, 19800, by decide, by decide, by decide, by decide⟩
    let hired := (all.addCondition ((Condition.lessThan "hired" (.instant leap)).withFormat
      .dateDays)).addCondition (.between "Hired" (.instant leap) (.text "9999-12-31T23:59:59Z"))
    let s := ((any.addCondition (.notEqual "Status" (.member "Status" "OPEN"))).addGroup
      hired).withFormat .isoDateTimeUtc
    (∀ c ∈ s.leaves, ∀ v ∈ c.values, v.isPlain = true) ∧
      ∃ e, s.plan schema = .ok e ∧ ∃ t, ofJson s.json = .ok t ∧ t.plan schema = .ok e :=
  ⟨by decide, _, rfl, plan_ofJson_json (by decide) rfl⟩

end Search

end RecordSearch
