import RecordSearch.Calendar.Date

/-!
Instants with the offset from universal time at which they were written down. A leap second is
held as a second of up to two seconds' length, so the same second of the day covers both.
-/

namespace RecordSearch

/-- A date with the second of the day and the nanoseconds within it, which run on beyond a whole
second through a leap second. -/
structure Moment where
  date : Date
  second : Nat
  nano : Nat
  second_lt : second < 86400
  nano_lt : nano < 2000000000
deriving DecidableEq

namespace Moment

/-- Later by a number of seconds less than a day, or earlier by as much. -/
def shift (m : Moment) (seconds : Int) : Moment :=
  let total := m.second + seconds
  let second := (total % 86400).toNat
  have h : second < 86400 := by omega
  if total < 0 then ⟨m.date.previous, second, m.nano, h, m.nano_lt⟩
  else if total < 86400 then ⟨m.date, second, m.nano, h, m.nano_lt⟩
  else ⟨m.date.next, second, m.nano, h, m.nano_lt⟩

def hour (m : Moment) : Nat := m.second / 3600

def minute (m : Moment) : Nat := m.second / 60 % 60

/-- Reaches 60 in a leap second. -/
def secondOfMinute (m : Moment) : Nat := m.second % 60 + m.nano / 1000000000

def nanoOfSecond (m : Moment) : Nat := m.nano % 1000000000

theorem hour_lt (m : Moment) : m.hour < 24 := by
  have := m.second_lt
  unfold hour
  omega

theorem minute_lt (m : Moment) : m.minute < 60 := by
  unfold minute
  omega

theorem secondOfMinute_le (m : Moment) : m.secondOfMinute ≤ 60 := by
  have := m.nano_lt
  unfold secondOfMinute
  omega

theorem nanoOfSecond_lt (m : Moment) : m.nanoOfSecond < 1000000000 := by
  unfold nanoOfSecond
  omega

/-- A shift of less than a day goes to a neighbouring year at most. -/
theorem year_shift (m : Moment) (seconds : Int) :
    m.date.year - 1 ≤ (m.shift seconds).date.year ∧
      (m.shift seconds).date.year ≤ m.date.year + 1 := by
  have hp := m.date.year_previous
  have hn := m.date.year_next
  unfold shift
  simp only
  split
  · simp only; omega
  · split <;> simp only <;> omega

end Moment

/-- The offset counts seconds east of universal time. -/
structure Timestamp where
  utc : Moment
  offset : Int
  year_ge : -262143 ≤ utc.date.year
  year_le : utc.date.year ≤ 262142
  offset_gt : -86400 < offset
  offset_lt : offset < 86400
deriving DecidableEq

namespace Timestamp

def atLocal (t : Timestamp) : Moment := t.utc.shift t.offset

/-- The same instant, written down in universal time. -/
def inUtc (t : Timestamp) : Timestamp :=
  { t with offset := 0, offset_gt := by decide, offset_lt := by decide }

/-- The same instant, whatever the offsets. -/
instance : BEq Timestamp where
  beq a b := a.utc == b.utc

/-- The components of a date and a time of day, as they stand in text. -/
structure Fields where
  year : Int
  month : Nat
  day : Nat
  hour : Nat
  minute : Nat
  second : Nat
  nano : Nat
  offset : Int

/-- Midnight at the start of year zero in universal time. -/
def Fields.zero : Fields := ⟨0, 1, 1, 0, 0, 0, 0, 0⟩

/-- The local time that the fields give, if there is such a day and time; second 60 is the leap
second after second 59. -/
def Fields.moment? (f : Fields) : Option Moment := do
  let date ← Date.of? f.year f.month f.day
  let leap := if f.second = 60 then 1 else 0
  let nano := f.nano + 1000000000 * leap
  let second := 3600 * f.hour + 60 * f.minute + (f.second - leap)
  if h : second < 86400 ∧ nano < 2000000000 then
    if f.hour < 24 ∧ f.minute < 60 ∧ f.second ≤ 60 then some ⟨date, second, nano, h.1, h.2⟩
    else none
  else none

def ofFields? (f : Fields) : Option Timestamp := do
  let utc := (← f.moment?).shift (-f.offset)
  if h : (-262143 ≤ utc.date.year ∧ utc.date.year ≤ 262142) ∧
      -86400 < f.offset ∧ f.offset < 86400 then
    some ⟨utc, f.offset, h.1.1, h.1.2, h.2.1, h.2.2⟩
  else none

end Timestamp

end RecordSearch
