import RecordSearch.Proofs.DateFields
import RecordSearch.Proofs.Faults

/-!
Text operands of date fields. The reader takes more than what is written: short numbers, blanks
before them, a sign on any year, a fraction that is missing. Of the texts that leave nothing out it
takes those that some instant is rendered as.

* `Comparator.refuses_date_iff`: the operands that a date field refuses;
* `DateFormat.accepts_iff_exists_render`: which full texts are accepted, as texts and as operands;
* `DateFormat.accepts_unrendered`: what else is accepted.
-/

namespace RecordSearch

namespace DateFormat

variable {f : DateFormat} {s : String}

theorem accepts_iff_of_isFull (h : f.IsFull s) : f.accepts s = true ↔ ∃ t, f.render t = s := by
  obtain ⟨g, hg, hcalendar, rfl⟩ := h
  constructor
  · intro ha
    exact exists_render_eq_text hg hcalendar ((accepts_text_iff hg).1 ha)
  · rintro ⟨t, ht⟩
    rw [← ht]
    exact f.accepts_render t

/-- What a date can be compared with: an instant, or the text that an instant is rendered as.
Null is an operand of every field. -/
def IsDate (f : DateFormat) : Value → Prop
  | .null => True
  | .instant _ => True
  | .text s => ∃ t, f.render t = s
  | _ => False

end DateFormat

/-- A text is refused if no instant is rendered as it. -/
theorem Comparator.refuses_date_iff {f : DateFormat} {field : String} {o : Operation} {v : Value}
    {err : QueryError} (ho : o.isTextual = false) (hfull : ∀ s, v = .text s → f.IsFull s) :
    (date f).Refuses field o v err ↔ ¬f.IsDate v ∧ .invalidOperand field o v = err := by
  cases v with
  | text s =>
    have haccepts := DateFormat.accepts_iff_of_isFull (hfull s rfl)
    cases ha : f.accepts s with
    | true => simp [Refuses, operand?, DateFormat.IsDate, ha, haccepts.1 ha]
    | false =>
      have hnone : ¬∃ t, f.render t = s := by simp [← haccepts, ha]
      simp [Refuses, operand?, DateFormat.IsDate, ha, ho, hnone, Value.isNull]
  | null | instant => simp [Refuses, operand?, DateFormat.IsDate, Value.isNull]
  | boolean | number | member | list =>
    simp [Refuses, operand?, DateFormat.IsDate, Value.isNull]

namespace Condition

variable {c : Condition} {schema : Schema} {defaultFormat f : DateFormat} {t : Target}
  {err : QueryError}

/-- The first operand that is no date makes the error. -/
theorem bind_date_eq_error_iff (ht : Target.find schema c.field = .ok t)
    (hk : t.type.comparator? c.case (c.format.getD defaultFormat) = some (.date f))
    (ho : c.operation.isTextual = false) (harity : c.HasArity)
    (hfull : ∀ s, .text s ∈ c.values → f.IsFull s) :
    c.bind schema defaultFormat = .error err ↔
      IsFirstFault (fun v e => ¬f.IsDate v ∧ .invalidOperand t.name c.operation v = e) c.values
        err := by
  rw [bind_of_find ht, hk]
  simp only
  rw [Comparator.bind_eq_error_iff harity]
  simp only [Comparator.supports, Bool.true_eq_false, false_and, false_or, true_and]
  refine isFirstFault_congr fun v hv e => ?_
  exact Comparator.refuses_date_iff ho fun s hs => hfull s (hs ▸ hv)

end Condition

namespace DateFormat

/-- **Only renderings are accepted**, as far as texts leave nothing out: a text in full digits,
without a day that its month does not have, is accepted if some instant is rendered as it. So a
condition on a date field that does not look for a fragment is bound if each of its operands is
null, an instant or a rendering, and else the first other one is the error. -/
theorem accepts_iff_exists_render (f : DateFormat) :
    (∀ t, f.accepts (f.render t) = true) ∧
    (∀ s, f.IsFull s → (f.accepts s = true ↔ ∃ t, f.render t = s)) ∧
    ∀ (c : Condition) schema defaultFormat t err, Target.find schema c.field = .ok t →
      t.type.comparator? c.case (c.format.getD defaultFormat) = some (.date f) →
      c.operation.isTextual = false → c.HasArity → (∀ s, .text s ∈ c.values → f.IsFull s) →
      (c.bind schema defaultFormat = .error err ↔
        IsFirstFault (fun v e => ¬f.IsDate v ∧ .invalidOperand t.name c.operation v = e) c.values
          err) := by
  refine ⟨f.accepts_render, fun s hs => accepts_iff_of_isFull hs, ?_⟩
  intro c schema defaultFormat t err ht hk ho harity hfull
  exact Condition.bind_date_eq_error_iff ht hk ho harity hfull

/-- A leap day as one operand, and a month that there is not as another. -/
theorem accepts_iff_exists_render_days :
    let schema : Schema := ⟨[⟨"Created", .optional .dateTime⟩]⟩
    let c : Condition := .plain "created" .equal [.text "2024-02-29", .null, .text "2024-13-01"]
    (∃ t, dateOnly.render t = "2024-02-29") ∧ (¬∃ t, dateOnly.render t = "2024-13-01") ∧
      c.bind schema dateOnly =
        .error (.invalidOperand "Created" .equal (.text "2024-13-01")) := by
  intro schema c
  obtain ⟨-, haccepts, hbind⟩ := accepts_iff_exists_render dateOnly
  have hleap : dateOnly.IsFull "2024-02-29" := by
    refine ⟨⟨2024, 2, 29, 0, 0, 0, 0, 0⟩, ?_, ?_, by decide +kernel⟩ <;> constructor <;> decide
  have hmonth : dateOnly.IsFull "2024-13-01" := by
    refine ⟨⟨2024, 13, 1, 0, 0, 0, 0, 0⟩, ?_, ?_, by decide +kernel⟩ <;> constructor <;> decide
  have hfind : Target.find schema c.field = .ok ⟨0, "Created", .date, .dateTime, false⟩ := by
    simp only [schema, c]
    rfl
  have hleap' := (haccepts _ hleap).1 (by decide +kernel)
  have hmonth' : ¬∃ t, dateOnly.render t = "2024-13-01" := by
    rw [← haccepts _ hmonth]
    decide +kernel
  refine ⟨hleap', hmonth', (hbind c schema dateOnly _ _ hfind rfl rfl rfl ?_).2 ?_⟩
  · rintro s (_ | ⟨_, _ | ⟨_, _ | ⟨_, ⟨⟩⟩⟩⟩)
    · exact hleap
    · exact hmonth
  · refine ⟨[.text "2024-02-29", .null], _, [], rfl, ?_, hmonth', rfl⟩
    rintro v (_ | ⟨_, _ | ⟨_, ⟨⟩⟩⟩) e ⟨hv, -⟩
    · exact hv hleap'
    · exact hv trivial

theorem toList_render_dateOnly (t : Timestamp) : (dateOnly.render t).toList =
    DateItem.yearText t.atLocal.date.year ++
      '-' :: (Digits.padded 2 t.atLocal.date.month ++ '-' :: Digits.padded 2 t.atLocal.date.day) := by
  simp [render, isUtc, pattern, day, DatePattern.write, DateItem.write]

theorem length_yearText_ge (y : Int) : 4 ≤ (DateItem.yearText y).length := by
  unfold DateItem.yearText
  split
  · exact Digits.le_length_padded 4 _
  · exact Nat.le_succ_of_le (Digits.le_length_padded 4 _)

theorem length_render_dateOnly_ge (t : Timestamp) : 10 ≤ (dateOnly.render t).toList.length := by
  have hyear := length_yearText_ge t.atLocal.date.year
  have hmonth := Digits.le_length_padded 2 t.atLocal.date.month
  have hday := Digits.le_length_padded 2 t.atLocal.date.day
  rw [toList_render_dateOnly]
  simp only [List.length_append, List.length_cons]
  omega

/-- The day and the month are the last six characters, whatever stands before them. -/
theorem eq_of_render_dateOnly {t : Timestamp} {y : List Char} {m d : Nat} (hm : m < 100)
    (hd : d < 100) (h : (dateOnly.render t).toList =
      y ++ '-' :: (Digits.padded 2 m ++ '-' :: Digits.padded 2 d)) :
    DateItem.yearText t.atLocal.date.year = y ∧ t.atLocal.date.month = m ∧
      t.atLocal.date.day = d := by
  have hmonth := t.atLocal.date.month_le
  have hday := t.atLocal.date.day_le_31
  have hwidth : ∀ {n : Nat}, n < 100 → (Digits.padded 2 n).length = 2 := fun hn =>
    Digits.length_padded (by decide) hn
  have hinj : ∀ {m n : Nat}, Digits.padded 2 m = Digits.padded 2 n → m = n := by
    intro m n h
    rw [← Digits.value_padded 2 m, h, Digits.value_padded]
  rw [toList_render_dateOnly] at h
  obtain ⟨hyear, hrest⟩ := List.append_inj' h (by simp [hwidth, show t.atLocal.date.month < 100 by
    omega, show t.atLocal.date.day < 100 by omega, hm, hd])
  obtain ⟨hmonths, hdays⟩ := List.append_inj (List.cons.inj hrest).2 (by
    rw [hwidth (by omega), hwidth hm])
  exact ⟨hyear, hinj hmonths, hinj (List.cons.inj hdays).2⟩

theorem eq_of_yearText_eq {y : Int} (hlow : -2 ^ 31 < y) (hhigh : y < 2 ^ 31)
    (h : DateItem.yearText y = DateItem.yearText 2024) : y = 2024 := by
  have hread := DateScan.year_append [] hlow hhigh (by simp [NoDigitFirst])
  rw [h] at hread
  have hread' := DateScan.year_append (y := 2024) [] (by decide) (by decide) (by simp [NoDigitFirst])
  exact (Prod.mk.inj (Option.some.inj (hread.symm.trans hread'))).1

/-- Short numbers are accepted, and so is a day that its month does not have, although no instant
is rendered like that. -/
theorem accepts_unrendered :
    (dateOnly.accepts "2024-2-3" = true ∧ ¬∃ t, dateOnly.render t = "2024-2-3") ∧
      dateOnly.accepts "2024-02-30" = true ∧ ¬∃ t, dateOnly.render t = "2024-02-30" := by
  refine ⟨⟨by decide +kernel, ?_⟩, by decide +kernel, ?_⟩
  · rintro ⟨t, ht⟩
    have hlength := length_render_dateOnly_ge t
    have hshort : ("2024-2-3".toList).length = 8 := by decide
    rw [ht, hshort] at hlength
    omega
  · rintro ⟨t, ht⟩
    have hlow := t.year_ge
    have hhigh := t.year_le
    have hshift := t.utc.year_shift t.offset
    obtain ⟨hyear, hmonth, hday⟩ := eq_of_render_dateOnly (t := t) (y := DateItem.yearText 2024)
      (m := 2) (d := 30) (by decide) (by decide) (by rw [ht]; decide +kernel)
    have hyear' : t.atLocal.date.year = 2024 := by
      refine eq_of_yearText_eq ?_ ?_ hyear <;> unfold Timestamp.atLocal <;> omega
    have hle := t.atLocal.date.day_le
    rw [hyear', hmonth, hday] at hle
    exact absurd hle (by decide)

end DateFormat

end RecordSearch
