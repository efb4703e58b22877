import RecordSearch.Proofs.DateText

/-!
Texts that leave nothing out. What is written in full digits is read as the numbers that it was
written from, so a format accepts it if an instant has these numbers, unless it is only for the days
of the month that there is none.

* `Date.next_previous`, `Date.previous_next`, `Moment.shift_neg`: a shift is undone;
* `Timestamp.Fields.exists_moment`: numbers in range, with a day that the month has, are those of a
  moment;
* `DateFormat.isFull_render`: renderings leave nothing out;
* `DateFormat.exists_render_eq_text`: a full text with numbers in range is rendered.
-/

namespace RecordSearch

open Timestamp (Fields)

theorem DateItem.text_congr_offset {g : Fields} {item : DateItem} {zone : Int} (h : item ≠ offset) :
    item.text { g with offset := zone } = item.text g := by
  cases item <;> first | rfl | exact absurd rfl h

theorem DatePattern.text_congr {p : DatePattern} {g g' : Fields} (h : ∀ item ∈ p, item.text g = item.text g') :
    p.text g = p.text g' := by
  rw [text, text, List.flatMap_def, List.flatMap_def, List.map_congr_left h]

namespace Date

theorem eq_of_parts {d e : Date} (hyear : d.year = e.year) (hmonth : d.month = e.month)
    (hday : d.day = e.day) : d = e := by
  cases d
  cases e
  simp only at hyear hmonth hday
  subst hyear hmonth hday
  rfl

/-- The day before the first of a month is the last of the month before. -/
theorem next_previous (d : Date) : d.previous.next = d := by
  obtain ⟨year, month, day, hmonth, hmonth', hday, hday'⟩ := d
  unfold previous
  simp only
  split
  · next h =>
    rw [next, dif_pos (by simp only; omega)]
    exact eq_of_parts rfl rfl (by simp only; omega)
  · next h =>
    obtain rfl : day = 1 := by omega
    split
    · next h =>
      rw [next, dif_neg (by simp), dif_pos (by simp only; omega)]
      exact eq_of_parts rfl (by simp only; omega) rfl
    · next h =>
      obtain rfl : month = 1 := by omega
      rw [next, dif_neg (by simp [daysInMonth]), dif_neg (by simp)]
      exact eq_of_parts (by simp only; omega) rfl rfl

theorem previous_next (d : Date) : d.next.previous = d := by
  obtain ⟨year, month, day, hmonth, hmonth', hday, hday'⟩ := d
  unfold next
  simp only
  split
  · next h =>
    rw [previous, dif_pos (by simp only; omega)]
    rfl
  · next h =>
    obtain rfl : day = daysInMonth year month := by omega
    split
    · next h =>
      rw [previous, dif_neg (by simp), dif_pos (by simp only; omega)]
      rfl
    · next h =>
      obtain rfl : month = 12 := by omega
      rw [previous, dif_neg (by simp), dif_neg (by simp)]
      exact eq_of_parts (by simp only; omega) rfl rfl

end Date

/-- A shift of less than a day is undone by the opposite one. -/
theorem Moment.shift_neg (m : Moment) {z : Int} (hlow : -86400 < z) (hhigh : z < 86400) :
    (m.shift (-z)).shift z = m := by
  obtain ⟨date, second, nano, hsecond, hnano⟩ := m
  unfold shift
  simp only
  split
  · next h =>
    rw [if_neg (by simp only; omega), if_neg (by simp only; omega)]
    simp only [Date.next_previous]
    congr 1
    omega
  · next h =>
    split
    · next h =>
      rw [if_neg (by simp only; omega), if_pos (by simp only; omega)]
      congr 1
      simp only
      omega
    · next h =>
      rw [if_pos (by simp only; omega)]
      simp only [Date.previous_next]
      congr 1
      omega

namespace Timestamp.Fields

/-- The year is among those of instants, with one to spare on both sides, and the day is one of the
month's, unless no month has as many days. -/
structure InCalendar (g : Fields) : Prop where
  year_gt : -262143 < g.year
  year_lt : g.year < 262142
  day_le : g.day ≤ 31 → g.day ≤ daysInMonth g.year g.month

/-- The numbers with the least in the place of each that is out of range. -/
def mended (g : Fields) : Fields :=
  { g with
    month := if 1 ≤ g.month ∧ g.month ≤ 12 then g.month else 1
    day := if 1 ≤ g.day ∧ g.day ≤ 31 then g.day else 1
    hour := if g.hour ≤ 23 then g.hour else 0
    minute := if g.minute ≤ 59 then g.minute else 0
    second := if g.second ≤ 60 then g.second else 0 }

variable {g : Fields}

theorem text_mended {item : DateItem} (h : item.InRange g) : item.text g.mended = item.text g := by
  cases item with
  | month =>
    have hbound : 1 ≤ g.month ∧ g.month ≤ 12 := h
    simp only [DateItem.text, mended, if_pos hbound]
  | day =>
    have hbound : 1 ≤ g.day ∧ g.day ≤ 31 := h
    simp only [DateItem.text, mended, if_pos hbound]
  | hour => simp only [DateItem.text, mended, if_pos (show g.hour ≤ 23 from h)]
  | minute => simp only [DateItem.text, mended, if_pos (show g.minute ≤ 59 from h)]
  | second => simp only [DateItem.text, mended, if_pos (show g.second ≤ 60 from h)]
  | year | millis | pointMillis | fraction | offset | blank | literal => rfl

theorem mended_day_le (h : g.InCalendar) :
    g.mended.day ≤ daysInMonth g.mended.year g.mended.month := by
  by_cases hday : 1 ≤ g.day ∧ g.day ≤ 31
  · by_cases hmonth : 1 ≤ g.month ∧ g.month ≤ 12
    · simp only [mended, if_pos hday, if_pos hmonth]
      exact h.day_le hday.2
    · simp only [mended, if_pos hday, if_neg hmonth]
      exact hday.2
  · simp only [mended, if_neg hday]
    exact daysInMonth_pos _ _

/-- A second numbered 60 is a leap second. -/
theorem exists_moment_of_le (hmonth : 1 ≤ g.month ∧ g.month ≤ 12)
    (hday : 1 ≤ g.day ∧ g.day ≤ daysInMonth g.year g.month) (hhour : g.hour ≤ 23)
    (hminute : g.minute ≤ 59) (hsecond : g.second ≤ 60) (hnano : g.nano < 1000000000) :
    ∃ m : Moment, m.fields g.offset = g := by
  obtain ⟨year, month, day, hour, minute, second, nano, offset⟩ := g
  simp only at *
  obtain ⟨leap, rest, hleap, hrest, rfl⟩ : ∃ leap rest, leap ≤ 1 ∧ rest ≤ 59 ∧
      second = rest + leap := by
    by_cases h : second = 60
    · exact ⟨1, 59, by omega, by omega, h⟩
    · exact ⟨0, second, by omega, by omega, rfl⟩
  refine ⟨⟨⟨year, month, day, hmonth.1, hmonth.2, hday.1, hday.2⟩,
    3600 * hour + 60 * minute + rest, nano + 1000000000 * leap, by omega, by omega⟩, ?_⟩
  simp only [Moment.fields, Moment.hour, Moment.minute, Moment.secondOfMinute,
    Moment.nanoOfSecond, mk.injEq, true_and, and_true]
  omega

theorem exists_moment (hnano : g.nano < 1000000000) (h : g.InCalendar) :
    ∃ m : Moment, m.fields g.offset = g.mended := by
  have hoffset : g.mended.offset = g.offset := rfl
  rw [← hoffset]
  refine exists_moment_of_le ?_ ⟨?_, mended_day_le h⟩ ?_ ?_ ?_ hnano
  all_goals
    simp only [mended]
    split <;> omega

end Timestamp.Fields

namespace DateFormat

/-- A text with as many digits as the format writes, of a year that instants have and with no day
that its month does not have. The other numbers may be out of range. -/
def IsFull (f : DateFormat) (s : String) : Prop :=
  ∃ g : Fields, g.Fits ∧ g.InCalendar ∧ f.pattern.text g = s

variable {f : DateFormat} {g : Fields}

theorem offset_notMem_pattern (h : f.isUtc = true) : DateItem.offset ∉ f.pattern := by
  cases f with
  | isoDateTimeUtc | isoDateTimeWithMillisecondsUtc => decide
  | _ => cases h

/-- What is rendered leaves nothing out. -/
theorem isFull_render {t : Timestamp} (hlow : -262143 < (f.fields t).year)
    (hhigh : (f.fields t).year < 262142) : f.IsFull (f.render t) := by
  refine ⟨f.fields t, f.fits_fields t, ⟨hlow, hhigh, fun _ => ?_⟩, (f.render_eq t).symm⟩
  unfold fields
  split
  · exact t.utc.date.day_le
  · exact t.atLocal.date.day_le

/-- Numbers in range are rendered: those that the format does not show are of no account. -/
theorem exists_render_eq_text (hg : g.Fits) (hcalendar : g.InCalendar)
    (hrange : ∀ item ∈ f.pattern, item.InRange g) : ∃ t, f.render t = f.pattern.text g := by
  obtain ⟨m, hm⟩ := Timestamp.Fields.exists_moment hg.nano_lt hcalendar
  have htext : f.pattern.text (m.fields g.offset) = f.pattern.text g := by
    rw [hm]
    exact DatePattern.text_congr fun item hitem => Timestamp.Fields.text_mended (hrange item hitem)
  have hyear : m.date.year = g.year := congrArg Fields.year hm
  have hlow := hcalendar.year_gt
  have hhigh := hcalendar.year_lt
  cases hutc : f.isUtc with
  | true =>
    refine ⟨⟨m, 0, by omega, by omega, by decide, by decide⟩, ?_⟩
    rw [render_eq, fields, hutc, if_pos rfl, ← htext]
    refine DatePattern.text_congr fun item hitem => ?_
    have hzone : item.text { m.fields g.offset with offset := 0 } = item.text (m.fields g.offset) :=
      DateItem.text_congr_offset fun he => offset_notMem_pattern hutc (he ▸ hitem)
    exact hzone
  | false =>
    have hshift := m.year_shift (-g.offset)
    refine ⟨⟨m.shift (-g.offset), g.offset, by omega, by omega, hg.offset_gt, hg.offset_lt⟩, ?_⟩
    rw [render_eq, fields, hutc, if_neg (by decide), Timestamp.atLocal,
      Moment.shift_neg m hg.offset_gt hg.offset_lt, htext]

end DateFormat

end RecordSearch
