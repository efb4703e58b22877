import RecordSearch.Proofs.Classification
import RecordSearch.Proofs.ReadBack
import RecordSearch.Proofs.Replanning

/-!
Searches for numbers on their way through JSON. A search comes back with the meaning that it had if
its numbers survive in the fields that they are compared with. Not all do: a decimal field that is
asked for seventeen digits is asked for sixteen afterwards.

* `Condition.replaces_reread`: a condition whose numbers survive holds of the same rows;
* `Search.plan_ofJson_json_of_survives`: so does a search;
* `Search.plan_ofJson_json_loses_digits`: one that does not.
-/

namespace RecordSearch

/-- A number that survives acts for itself when it comes back. -/
theorem Comparator.actsFor_reread_number {k : Comparator} {o : Operation} {format : DateFormat}
    {n : Number} (h : ∀ w, k = .number w → n.Survives w o) :
    ActsFor Scalar.Alike k o ((Value.number n).reread format) (.number n) := by
  refine ⟨Value.isNull_reread, ?_⟩
  intro s hs
  cases k with
  | number w =>
    obtain ⟨m, hm, hkept⟩ := h w rfl
    rw [Value.reread, hm, Option.getD_some]
    rw [operand?] at hs ⊢
    split at hkept
    · next ho =>
      rw [if_pos ho] at hs
      rw [if_pos ho, hkept]
      exact ⟨s, hs, .refl s⟩
    · next ho =>
      rw [if_neg ho] at hs
      rw [if_neg ho]
      obtain ⟨b, hb, rfl⟩ := Option.map_eq_some_iff.1 hs
      obtain ⟨a, ha, halike⟩ := hkept b hb
      exact ⟨.number a, Option.map_eq_some_iff.2 ⟨a, ha, rfl⟩, .number halike⟩
  | string | boolean | date | enumerated => cases hs

theorem FieldType.eq_number_of_comparator? {t : FieldType} {mode : CaseMode} {format : DateFormat}
    {w : Width} (h : t.comparator? mode format = some (.number w)) : t = .number w := by
  cases t with
  | number width =>
    obtain rfl := Comparator.number.inj (Option.some.inj h)
    rfl
  | unit | string | char | boolean | dateTime | date | enum | optional | list | other => cases h

namespace Condition

variable {c : Condition} {schema : Schema} {format : DateFormat}

/-- The numbers among the operands are kept by the field that the condition is about. -/
def Survives (schema : Schema) (c : Condition) : Prop :=
  ∀ t w, Target.find schema c.field = .ok t → t.type = .number w →
    ∀ n, .number n ∈ c.values → n.Survives w c.operation

theorem survives_of_find {t : Target} {w : Width} (ht : Target.find schema c.field = .ok t)
    (hw : t.type = .number w) (hn : ∀ v ∈ c.values, ∀ n, v = .number n → n.Survives w c.operation) :
    c.Survives schema := by
  intro t' w' ht' hw' n hmem
  obtain rfl := Except.ok.inj (ht.symm.trans ht')
  obtain rfl := FieldType.number.inj (hw.symm.trans hw')
  exact hn _ hmem n rfl

theorem replaces_reread (hv : ∀ v ∈ c.values, v.isEncodable = true) (hs : c.Survives schema) :
    (c.reread format).Replaces schema format c := by
  intro e h
  apply bind_mapOperands congruence_equivalent (fun v _ => Value.isNull_reread) _ h
  intro t k ht hk v hmem
  have hplain : v.isPlain = true ∨ ∃ n, v = .number n := by
    cases v with
    | number n => exact .inr ⟨n, rfl⟩
    | list => cases hv _ hmem
    | null | boolean | text | instant | member => exact .inl rfl
  rcases hplain with hplain | ⟨n, rfl⟩
  · apply Comparator.StandsFor.actsFor _ Scalar.Alike.refl
    apply Comparator.standsFor_reread _ hplain
    rintro f rfl
    exact Target.eq_of_comparator?_date hk
  · apply Comparator.actsFor_reread_number
    rintro w rfl
    rw [Target.comparator?_of_find ht, Except.ok.injEq] at hk
    exact hs t w ht (FieldType.eq_number_of_comparator? hk) n hmem

end Condition

namespace Search

/-- **An encoded search keeps numbers that survive.** If the fields keep the numbers that they are
compared with, then a search that has a plan is read back without an error, with a plan that holds
of the same rows. -/
theorem plan_ofJson_json_of_survives {s : Search} {schema : Schema} {e : Expression}
    (hv : ∀ c ∈ s.leaves, ∀ v ∈ c.values, v.isEncodable = true)
    (hs : ∀ c ∈ s.leaves, c.Survives schema) (h : s.plan schema = .ok e) :
    ∃ t, ofJson s.json = .ok t ∧
      ∃ d, t.plan schema = .ok d ∧ ∀ row, d.evaluate row = e.evaluate row := by
  have harity : ∀ c ∈ s.leaves, c.HasArity := by
    obtain ⟨o, ho, -⟩ := map_ok_iff.1 h
    intro c hc
    obtain ⟨b, hb⟩ := Node.bind_of_plan s.root ho c hc
    exact Condition.hasArity_of_bind hb
  refine ⟨_, ofJson_json_of_isEncodable harity hv, ?_⟩
  exact plan_mapConditions_of_replaces (fun c hc => Condition.replaces_reread (hv c hc) (hs c hc)) h

/-- A decimal of twenty digits, an integer beyond 63 bits, and decimals that are read as
floating-point numbers: one in fields that keep its value, and a fragment that keeps its digits. -/
theorem plan_ofJson_json_of_survives_mixed :
    let schema : Schema := ⟨[⟨"Id", .number .i32⟩, ⟨"Size", .optional (.number .u64)⟩,
      ⟨"Price", .number .decimal⟩, ⟨"Rates", .list (.number .f32)⟩]⟩
    let price : Decimal := ⟨false, 12345678901234567890, 18, by decide, by decide⟩
    let rate : Decimal := ⟨true, 1250, 3, by decide, by decide⟩
    let half : Decimal := ⟨false, 15, 1, by decide, by decide⟩
    let owned := (any.addCondition (.plain "id" .contains
      [.number (.int 41), .number (.decimal half)])).addCondition
        (.notEqual "Size" (.number (.uint 9223372036854775808)))
    let s := ((all.addCondition (.between "Price" (.number (.decimal rate))
      (.number (.decimal price)))).addGroup owned).addCondition
        (.notEqual "rates" (.number (.decimal rate)))
    ∃ e, s.plan schema = .ok e ∧ ∃ t, ofJson s.json = .ok t ∧
      ∃ d, t.plan schema = .ok d ∧ ∀ row, d.evaluate row = e.evaluate row := by
  intro schema price rate half owned s
  have hzero : rate.unsignZero = rate := rfl
  have hidFound : Target.find schema "id" = .ok ⟨0, "Id", .number, .number .i32, false⟩ := by
    simp only [schema]
    rfl
  have hid : (Condition.plain "id" .contains
      [.number (.int 41), .number (.decimal half)]).Survives schema := by
    apply Condition.survives_of_find hidFound rfl
    rintro v (_ | ⟨_, _ | ⟨_, ⟨⟩⟩⟩) n ⟨⟩
    · exact Number.survives_int 41
    · have hshown : Width.text .i32 (.float half.toDouble) = half.text := by decide +kernel
      exact Number.survives_of_text rfl rfl hshown
  have hsize : (Condition.notEqual "Size" (.number (.uint 9223372036854775808))).Survives schema := by
    apply Condition.survives_of_find (t := ⟨1, "Size", .number, .number .u64, false⟩) rfl rfl
    rintro v (_ | ⟨_, ⟨⟩⟩) n ⟨⟩
    exact Number.survives_uint _
  have hprice : (Condition.between "Price" (.number (.decimal rate))
      (.number (.decimal price))).Survives schema := by
    apply Condition.survives_of_find (t := ⟨2, "Price", .number, .number .decimal, false⟩) rfl rfl
    rintro v (_ | ⟨_, _ | ⟨_, ⟨⟩⟩⟩) n ⟨⟩
    · have hback : Decimal.ofDouble? rate.toDouble =
          some ⟨true, 125, 2, by decide, by decide⟩ := by decide +kernel
      have hwhole : Number.whole? (.float rate.toDouble) = some rate.trunc := by decide +kernel
      exact Number.survives_of_ofDouble? hzero rfl hback (by decide) hwhole
    · have hread : Number.ofJsonText? price.text = some (.decimal price) := by decide +kernel
      apply Number.survives_decimal rfl
      intro x hx
      cases hread.symm.trans hx
  have hratesFound : Target.find schema "rates" =
      .ok ⟨3, "Rates", .number, .number .f32, true⟩ := by
    simp only [schema]
    rfl
  have hrates : (Condition.notEqual "rates" (.number (.decimal rate))).Survives schema := by
    apply Condition.survives_of_find hratesFound rfl
    rintro v (_ | ⟨_, ⟨⟩⟩) n ⟨⟩
    exact Number.survives_of_floating hzero rfl (.inl rfl)
  obtain ⟨e, he⟩ : ∃ e, s.plan schema = .ok e := by
    simp only [s, owned, price, rate, half, schema]
    exact ⟨_, rfl⟩
  refine ⟨e, he, plan_ofJson_json_of_survives (by decide) ?_ he⟩
  rintro c (_ | ⟨_, _ | ⟨_, _ | ⟨_, _ | ⟨_, ⟨⟩⟩⟩⟩⟩)
  · exact hprice
  · exact hid
  · exact hsize
  · exact hrates

/-- A decimal field keeps seventeen digits, and the number that these are read as gives it sixteen. -/
theorem plan_ofJson_json_loses_digits :
    let schema : Schema := ⟨[⟨"Price", .number .decimal⟩]⟩
    let price : Decimal := ⟨false, 12345678901234568, 17, by decide, by decide⟩
    let s := all.addCondition (.equal "Price" (.number (.decimal price)))
    let row : Row := [.number (.decimal price)]
    (∃ e, s.plan schema = .ok e ∧ e.evaluate row = true) ∧
      ∃ t, ofJson s.json = .ok t ∧ ∃ d, t.plan schema = .ok d ∧ d.evaluate row = false :=
  ⟨exists_ok_of_toOption (by decide +kernel), _,
    ofJson_json_of_isEncodable (by decide) (by decide), exists_ok_of_toOption (by decide +kernel)⟩

end Search

end RecordSearch
