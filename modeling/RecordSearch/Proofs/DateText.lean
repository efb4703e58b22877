import RecordSearch.Calendar.DateFormat
import RecordSearch.Proofs.Digits

/-!
Reading the text of an instant. Numbers are written with all their digits, so reading one stops where
writing did, except for a year with a sign, which runs on through digits. A pattern writes numbers
whether or not they name a day and a time, and reads those that are in range.

* `DateItem.read_text_of_inRange`, `DateItem.read_text_of_not_inRange`: what an item reads;
* `DatePattern.readFrom_text`: and what a pattern that puts no digit behind a year;
* `DateFormat.render_eq`: a rendering is the text of the numbers that the format shows;
* `DateFormat.accepts_render`: every format accepts each text that it renders.
-/

namespace RecordSearch

open Timestamp (Fields)

theorem Text.trimLeft_of_isDigit {ds : List Char} (hne : ds ≠ [])
    (hd : ∀ c ∈ ds, c.isDigit = true) (rest : List Char) : trimLeft (ds ++ rest) = ds ++ rest := by
  match ds, hne with
  | c :: ds, _ =>
    rw [trimLeft, List.cons_append, List.dropWhile_cons_of_neg]
    simp [isBlank_of_isDigit (hd c List.mem_cons_self)]

/-- Text that cannot continue a number. -/
def NoDigitFirst (cs : List Char) : Prop := ∀ c ∈ cs.head?, c.isDigit = false

namespace DateScan

variable {ds : List Char} (rest : List Char)

theorem number_append (most : Nat) (hne : ds ≠ []) (hd : ∀ c ∈ ds, c.isDigit = true)
    (hlen : ds.length ≤ most) (hr : ds.length = most ∨ NoDigitFirst rest) :
    number most (ds ++ rest) = some (Digits.value ds, rest) := by
  have htake : ((ds ++ rest).take most).takeWhile Char.isDigit = ds := by
    rw [List.take_append, List.take_of_length_le hlen]
    refine (span_append hd ?_).1
    intro c hc
    cases hr with
    | inl hr => simp [hr] at hc
    | inr hr =>
      apply hr c
      cases rest with
      | nil => simp at hc
      | cons d rest =>
        cases hk : most - ds.length with
        | zero => simp [hk] at hc
        | succ k => simpa [hk] using hc
  simp only [number, htake, List.isEmpty_eq_false_iff.2 hne, Bool.false_eq_true, if_false,
    List.drop_left]

theorem exactly_append (hd : ∀ c ∈ ds, c.isDigit = true) :
    exactly ds.length (ds ++ rest) = some (Digits.value ds, rest) := by
  simp [exactly, List.all_eq_true.2 hd]

theorem exactly_padded {count n : Nat} (hc : 0 < count) (hn : n < 10 ^ count) :
    exactly count (Digits.padded count n ++ rest) = some (n, rest) := by
  have hdigits : ∀ c ∈ Digits.padded count n, c.isDigit = true :=
    fun _ => Digits.isDigit_of_mem_padded
  have h := exactly_append rest hdigits
  rwa [Digits.length_padded hc hn, Digits.value_padded] at h

theorem padded_ne_nil {count n : Nat} (hc : 0 < count) : Digits.padded count n ≠ [] := by
  intro h
  have := Digits.le_length_padded count n
  simp [h] at this
  omega

/-- Two digits are read as the number that they are, if that is in range. -/
theorem bounded_padded_eq {low high n : Nat} (hn : n < 100) :
    bounded low high (Digits.padded 2 n ++ rest) =
      if low ≤ n ∧ n ≤ high then some (n, rest) else none := by
  have hne : Digits.padded 2 n ≠ [] := padded_ne_nil (by decide)
  have hdigits : ∀ c ∈ Digits.padded 2 n, c.isDigit = true := fun _ => Digits.isDigit_of_mem_padded
  have hlen : (Digits.padded 2 n).length = 2 := Digits.length_padded (by decide) hn
  have hnumber := number_append rest 2 hne hdigits (Nat.le_of_eq hlen) (.inl hlen)
  rw [bounded, Text.trimLeft_of_isDigit hne hdigits, hnumber, Digits.value_padded]
  rfl

/-- A year of other than four digits has a sign, and behind a sign all digits belong to it. -/
theorem year_append {y : Int} (hlow : -2 ^ 31 < y) (hhigh : y < 2 ^ 31) (hr : NoDigitFirst rest) :
    year (DateItem.yearText y ++ rest) = some (y, rest) := by
  have hne : Digits.padded 4 y.natAbs ≠ [] := padded_ne_nil (by decide)
  have hdigits : ∀ c ∈ Digits.padded 4 y.natAbs, c.isDigit = true :=
    fun _ => Digits.isDigit_of_mem_padded
  unfold DateItem.yearText
  split
  · next h =>
    have hlen : (Digits.padded 4 y.natAbs).length = 4 := Digits.length_padded (by decide) (by omega)
    have hnumber := number_append rest 4 hne hdigits (Nat.le_of_eq hlen) (.inl hlen)
    have habs : y.toNat = y.natAbs := by omega
    rw [habs, year, Text.trimLeft_of_isDigit hne hdigits]
    match hp : Digits.padded 4 y.natAbs, hne with
    | c :: ds, _ =>
      rw [hp] at hdigits hnumber
      have hc := hdigits c List.mem_cons_self
      split
      · next e =>
        rw [(List.cons.inj e).1] at hc
        simp at hc
      · next e =>
        rw [(List.cons.inj e).1] at hc
        simp at hc
      · rw [hnumber, ← hp, Digits.value_padded]
        simp only [bind, Option.bind]
        congr 2
        omega
  · next h =>
    have hnumber := number_append rest (Digits.padded 4 y.natAbs ++ rest).length hne hdigits
      (by simp) (.inr hr)
    by_cases hneg : y < 0
    · simp only [hneg, if_true, List.cons_append]
      rw [year, Text.trimLeft, List.dropWhile_cons_of_neg (by decide)]
      simp only [hnumber, Digits.value_padded, bind, Option.bind, Nat.pow_eq]
      rw [if_pos (by omega)]
      congr 2
      omega
    · simp only [hneg, if_false, List.cons_append]
      rw [year, Text.trimLeft, List.dropWhile_cons_of_neg (by decide)]
      simp only [hnumber, Digits.value_padded, bind, Option.bind, Nat.pow_eq]
      rw [if_pos (by omega)]
      congr 2
      omega

theorem colonsAndBlanks_colon (hne : ds ≠ []) (hd : ∀ c ∈ ds, c.isDigit = true) :
    colonsAndBlanks (':' :: (ds ++ rest)) = some (ds ++ rest) := by
  match ds, hne with
  | c :: ds, _ =>
    have hc := hd c List.mem_cons_self
    have hcolon : c ≠ ':' := by
      rintro rfl
      simp at hc
    simp [colonsAndBlanks, hcolon, Text.isBlank_of_isDigit hc]

/-- The minutes are what the seconds are rounded to, so they are below sixty. -/
theorem exists_zone_offsetText {zone : Int} (hlow : -86400 < zone) (hhigh : zone < 86400) :
    ∃ n, DateScan.zone colonsAndBlanks (DateItem.offsetText zone ++ rest) = some (n, rest) := by
  have hhours : (zone.natAbs + 30) / 60 / 60 < 10 ^ 2 := by omega
  have hbelow : (zone.natAbs + 30) / 60 % 60 < 60 := by omega
  have hminutes : (zone.natAbs + 30) / 60 % 60 < 10 ^ 2 := by omega
  have hne : Digits.padded 2 ((zone.natAbs + 30) / 60 % 60) ≠ [] := padded_ne_nil (by decide)
  have hcolon := colonsAndBlanks_colon rest hne fun _ => Digits.isDigit_of_mem_padded
  have hminute := exactly_padded rest (by decide) hminutes
  have hhour := exactly_padded (':' :: (Digits.padded 2 ((zone.natAbs + 30) / 60 % 60) ++ rest))
    (by decide) hhours
  by_cases hneg : zone < 0
  · simp [DateItem.offsetText, DateScan.zone, hneg, hhour, hminute, hcolon, hbelow]
  · simp [DateItem.offsetText, DateScan.zone, hneg, hhour, hminute, hcolon, hbelow]

theorem trimLeft_offsetText (zone : Int) :
    Text.trimLeft (DateItem.offsetText zone ++ rest) = DateItem.offsetText zone ++ rest := by
  by_cases hneg : zone < 0
  · simp [DateItem.offsetText, Text.trimLeft, hneg, Text.isBlank]
  · simp [DateItem.offsetText, Text.trimLeft, hneg, Text.isBlank]

end DateScan

namespace Moment

/-- The numbers that stand for the moment in text. A leap second counts to the second before. -/
def fields (m : Moment) (zone : Int) : Fields :=
  ⟨m.date.year, m.date.month, m.date.day, m.hour, m.minute, m.secondOfMinute, m.nanoOfSecond, zone⟩

end Moment

namespace DateItem

/-- How the item is written with numbers that need not be those of a moment. -/
def text (g : Fields) : DateItem → List Char
  | year => yearText g.year
  | month => Digits.padded 2 g.month
  | day => Digits.padded 2 g.day
  | hour => Digits.padded 2 g.hour
  | minute => Digits.padded 2 g.minute
  | second => Digits.padded 2 g.second
  | millis => Digits.padded 3 (g.nano / 1000000)
  | pointMillis => '.' :: Digits.padded 3 (g.nano / 1000000)
  | fraction => fractionText g.nano
  | offset => offsetText g.offset
  | blank => [' ']
  | literal c => [c]

theorem write_eq (m : Moment) (zone : Int) (item : DateItem) :
    item.write m zone = item.text (m.fields zone) := by
  cases item <;> rfl

/-- The number of the item is one that a day or a time can have. -/
def InRange (g : Fields) : DateItem → Prop
  | month => 1 ≤ g.month ∧ g.month ≤ 12
  | day => 1 ≤ g.day ∧ g.day ≤ 31
  | hour => g.hour ≤ 23
  | minute => g.minute ≤ 59
  | second => g.second ≤ 60
  | _ => True

/-- Items that read what they write in front of any other item, given that a year stands at the
end or in front of something other than a digit. -/
def mayPrecede : DateItem → Option DateItem → Bool
  | year, none => true
  | year, some (literal c) => !c.isDigit
  | year, some _ => false
  | fraction, _ => false
  | blank, _ => false
  | _, _ => true

end DateItem

/-- The numbers have no more digits than the patterns have places, and the offset is below a day. -/
structure Timestamp.Fields.Fits (g : Fields) : Prop where
  year_gt : -2 ^ 31 < g.year
  year_lt : g.year < 2 ^ 31
  month_lt : g.month < 100
  day_lt : g.day < 100
  hour_lt : g.hour < 100
  minute_lt : g.minute < 100
  second_lt : g.second < 100
  nano_lt : g.nano < 1000000000
  offset_gt : -86400 < g.offset
  offset_lt : g.offset < 86400

namespace DateItem

variable {g : Fields} {item : DateItem} {rest : List Char}

/-- An item in range is read up to the rest. -/
theorem read_text_of_inRange (hg : g.Fits) (hitem : item ≠ fraction ∧ item ≠ blank)
    (hrest : item = year → NoDigitFirst rest) (h : item.InRange g) (f : Fields) :
    ∃ f', item.read f (item.text g ++ rest) = some (f', rest) := by
  cases item with
  | year => simp [read, text, DateScan.year_append rest hg.year_gt hg.year_lt (hrest rfl)]
  | month => simp [read, text, DateScan.bounded_padded_eq rest hg.month_lt, h.1, h.2]
  | day => simp [read, text, DateScan.bounded_padded_eq rest hg.day_lt, h.1, h.2]
  | hour => simp [read, text, DateScan.bounded_padded_eq rest hg.hour_lt, show g.hour ≤ 23 from h]
  | minute =>
    simp [read, text, DateScan.bounded_padded_eq rest hg.minute_lt, show g.minute ≤ 59 from h]
  | second =>
    simp [read, text, DateScan.bounded_padded_eq rest hg.second_lt, show g.second ≤ 60 from h]
  | millis =>
    have hlt := hg.nano_lt
    simp [read, text, DateScan.exactly_padded rest (by decide : 0 < 3)
      (by omega : g.nano / 1000000 < 10 ^ 3)]
  | pointMillis =>
    have hlt := hg.nano_lt
    simp [read, text, DateScan.pointMillis, DateScan.exactly_padded rest (by decide : 0 < 3)
      (by omega : g.nano / 1000000 < 10 ^ 3)]
  | offset =>
    obtain ⟨n, hn⟩ := DateScan.exists_zone_offsetText rest hg.offset_gt hg.offset_lt
    simp [read, text, DateScan.trimLeft_offsetText, hn]
  | literal c => simp [read, text, DateScan.literal]
  | fraction => exact absurd rfl hitem.1
  | blank => exact absurd rfl hitem.2

/-- An item out of range is not read. -/
theorem read_text_of_not_inRange (hg : g.Fits) (h : ¬item.InRange g) (f : Fields) :
    item.read f (item.text g ++ rest) = none := by
  cases item with
  | month =>
    have hbound : ¬(1 ≤ g.month ∧ g.month ≤ 12) := h
    simp only [read, text, DateScan.bounded_padded_eq rest hg.month_lt, if_neg hbound]
    rfl
  | day =>
    have hbound : ¬(1 ≤ g.day ∧ g.day ≤ 31) := h
    simp only [read, text, DateScan.bounded_padded_eq rest hg.day_lt, if_neg hbound]
    rfl
  | hour =>
    have hbound : ¬(0 ≤ g.hour ∧ g.hour ≤ 23) := fun hb => h hb.2
    simp only [read, text, DateScan.bounded_padded_eq rest hg.hour_lt, if_neg hbound]
    rfl
  | minute =>
    have hbound : ¬(0 ≤ g.minute ∧ g.minute ≤ 59) := fun hb => h hb.2
    simp only [read, text, DateScan.bounded_padded_eq rest hg.minute_lt, if_neg hbound]
    rfl
  | second =>
    have hbound : ¬(0 ≤ g.second ∧ g.second ≤ 60) := fun hb => h hb.2
    simp only [read, text, DateScan.bounded_padded_eq rest hg.second_lt, if_neg hbound]
    rfl
  | year | millis | pointMillis | fraction | offset | blank | literal => exact absurd trivial h

end DateItem

namespace DatePattern

/-- Patterns whose items read what they write. -/
def isReadable : DatePattern → Bool
  | [] => true
  | item :: rest => item.mayPrecede rest.head? && isReadable rest

/-- The text of numbers that need not be those of a moment. -/
def text (p : DatePattern) (g : Fields) : String := String.ofList (p.flatMap (DateItem.text g))

theorem write_eq (p : DatePattern) (m : Moment) (zone : Int) :
    p.write m zone = p.text (m.fields zone) := by
  rw [write, text, funext (DateItem.write_eq m zone)]

variable {g : Fields} {p : DatePattern}

theorem noDigitFirst_text (h : DateItem.mayPrecede .year p.head? = true) :
    NoDigitFirst (p.flatMap (DateItem.text g)) := by
  cases p with
  | nil => simp [NoDigitFirst]
  | cons item rest =>
    cases item <;> simp_all [DateItem.mayPrecede, NoDigitFirst, DateItem.text]

/-- Numbers are read back to the end of the text if each is in range, and else not at all. -/
theorem readFrom_text (hg : g.Fits) (hp : p.isReadable = true) (f : Fields) :
    ((∀ item ∈ p, item.InRange g) →
      ∃ f', p.readFrom f (p.flatMap (DateItem.text g)) = some (f', [])) ∧
    (¬(∀ item ∈ p, item.InRange g) → p.readFrom f (p.flatMap (DateItem.text g)) = none) := by
  induction p generalizing f with
  | nil => exact ⟨fun _ => ⟨f, rfl⟩, fun h => absurd (fun _ hi => by cases hi) h⟩
  | cons item rest ih =>
    rw [isReadable, Bool.and_eq_true] at hp
    simp only [List.forall_mem_cons, List.flatMap_cons, readFrom]
    by_cases hitem : item.InRange g
    · have hreadable : item ≠ .fraction ∧ item ≠ .blank := by
        constructor <;> rintro rfl <;> simp [DateItem.mayPrecede] at hp
      obtain ⟨f', hf'⟩ := DateItem.read_text_of_inRange hg hreadable
        (fun he => noDigitFirst_text (he ▸ hp.1)) hitem f
      rw [hf']
      simp only [hitem, true_and, Option.bind_eq_bind, Option.bind_some]
      exact ih hp.2 f'
    · have hnone : item.read f (item.text g ++ rest.flatMap (DateItem.text g)) = none :=
        DateItem.read_text_of_not_inRange hg hitem f
      simp [hitem, hnone]

end DatePattern

namespace DateFormat

theorem isReadable_pattern (f : DateFormat) : f.pattern.isReadable = true := by
  cases f <;> decide

/-- The numbers that a rendering is made of. -/
def fields (f : DateFormat) (t : Timestamp) : Fields :=
  if f.isUtc then t.utc.fields 0 else t.atLocal.fields t.offset

theorem render_eq (f : DateFormat) (t : Timestamp) : f.render t = f.pattern.text (f.fields t) := by
  unfold render fields
  split <;> rw [DatePattern.write_eq]

/-- Full digits are accepted if the numbers are in range. -/
theorem accepts_text_iff {f : DateFormat} {g : Fields} (hg : g.Fits) :
    f.accepts (f.pattern.text g) = true ↔ ∀ item ∈ f.pattern, item.InRange g := by
  obtain ⟨hread, hnone⟩ := DatePattern.readFrom_text hg f.isReadable_pattern .zero
  constructor
  · intro h
    refine Classical.byContradiction fun hrange => ?_
    simp [accepts, DatePattern.text, DatePattern.read?, hnone hrange] at h
  · intro h
    obtain ⟨e, he⟩ := hread h
    simp [accepts, DatePattern.text, DatePattern.read?, he]

end DateFormat

theorem Moment.fits_fields (m : Moment) {zone : Int} (hlow : -2 ^ 31 < m.date.year)
    (hhigh : m.date.year < 2 ^ 31) (hzone : -86400 < zone ∧ zone < 86400) :
    (m.fields zone).Fits := by
  have hmonth := m.date.month_le
  have hday := m.date.day_le_31
  have hhour := m.hour_lt
  have hminute := m.minute_lt
  have hsecond := m.secondOfMinute_le
  exact ⟨hlow, hhigh, Nat.lt_of_le_of_lt hmonth (by decide), Nat.lt_of_le_of_lt hday (by decide),
    Nat.lt_trans hhour (by decide), Nat.lt_trans hminute (by decide),
    Nat.lt_of_le_of_lt hsecond (by decide), m.nanoOfSecond_lt, hzone.1, hzone.2⟩

theorem Moment.inRange_fields (m : Moment) (zone : Int) (item : DateItem) :
    item.InRange (m.fields zone) := by
  cases item with
  | month => exact ⟨m.date.month_pos, m.date.month_le⟩
  | day => exact ⟨m.date.day_pos, m.date.day_le_31⟩
  | hour => exact Nat.le_of_lt_succ m.hour_lt
  | minute => exact Nat.le_of_lt_succ m.minute_lt
  | second => exact m.secondOfMinute_le
  | year | millis | pointMillis | fraction | offset | blank | literal => trivial

namespace DateFormat

theorem fits_fields (f : DateFormat) (t : Timestamp) : (f.fields t).Fits := by
  have hlow := t.year_ge
  have hhigh := t.year_le
  have hshift := t.utc.year_shift t.offset
  unfold fields
  split
  · exact t.utc.fits_fields (by omega) (by omega) (by decide)
  · have hyear : -2 ^ 31 < t.atLocal.date.year ∧ t.atLocal.date.year < 2 ^ 31 := by
      unfold Timestamp.atLocal
      omega
    exact t.atLocal.fits_fields hyear.1 hyear.2 ⟨t.offset_gt, t.offset_lt⟩

theorem inRange_fields (f : DateFormat) (t : Timestamp) (item : DateItem) :
    item.InRange (f.fields t) := by
  unfold fields
  split
  · exact t.utc.inRange_fields 0 item
  · exact t.atLocal.inRange_fields t.offset item

/-- **A format accepts what it renders**, whatever the year, the offset and the second are. -/
theorem accepts_render (f : DateFormat) (t : Timestamp) : f.accepts (f.render t) = true := by
  rw [render_eq, accepts_text_iff (f.fits_fields t)]
  exact fun item _ => f.inRange_fields t item

end DateFormat

end RecordSearch
