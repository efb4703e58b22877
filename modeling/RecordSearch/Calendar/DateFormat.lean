import RecordSearch.Text.Ascii
import RecordSearch.Calendar.Pattern

/-!
The catalogue of date formats: each has a code, a name and a pattern. A format writes instants as
text, and says of a text whether it may stand for one.
-/

namespace RecordSearch

inductive DateFormat where
  | dateOnly
  | timeOnly
  | isoDateTime
  | isoDateTimeWithMilliseconds
  | isoDateTimeWithOffset
  | isoDateTimeUtc
  | isoDateTimeWithMillisecondsUtc
  | dateDays
  | dateMonths
  | dateYears
  | timeOn
  | timeFull
  | timeHours
  | timeMinutes
  | timeSeconds
  | timeMilliseconds
deriving DecidableEq

namespace DateFormat

def all : List DateFormat :=
  [dateOnly, timeOnly, isoDateTime, isoDateTimeWithMilliseconds, isoDateTimeWithOffset,
   isoDateTimeUtc, isoDateTimeWithMillisecondsUtc, dateDays, dateMonths, dateYears, timeOn,
   timeFull, timeHours, timeMinutes, timeSeconds, timeMilliseconds]

/-- The format of a search that names none. -/
instance : Inhabited DateFormat := ⟨isoDateTime⟩

def code : DateFormat → Int
  | dateOnly => 1
  | timeOnly => 2
  | isoDateTime => 3
  | isoDateTimeWithMilliseconds => 4
  | isoDateTimeWithOffset => 5
  | isoDateTimeUtc => 6
  | isoDateTimeWithMillisecondsUtc => 7
  | dateDays => 11
  | dateMonths => 12
  | dateYears => 13
  | timeOn => 21
  | timeFull => 22
  | timeHours => 23
  | timeMinutes => 24
  | timeSeconds => 25
  | timeMilliseconds => 26

def name : DateFormat → String
  | dateOnly => "DateOnly"
  | timeOnly => "TimeOnly"
  | isoDateTime => "ISODateTime"
  | isoDateTimeWithMilliseconds => "ISODateTimeWithMilliseconds"
  | isoDateTimeWithOffset => "ISODateTimeWithOffset"
  | isoDateTimeUtc => "ISODateTimeUTC"
  | isoDateTimeWithMillisecondsUtc => "ISODateTimeWithMillisecondsUTC"
  | dateDays => "DateDays"
  | dateMonths => "DateMonths"
  | dateYears => "DateYears"
  | timeOn => "TimeOn"
  | timeFull => "TimeFull"
  | timeHours => "TimeHours"
  | timeMinutes => "TimeMinutes"
  | timeSeconds => "TimeSeconds"
  | timeMilliseconds => "TimeMilliseconds"

def ofCode? (n : Int) : Option DateFormat := all.find? (·.code == n)

def ofName? (s : String) : Option DateFormat := all.find? fun f => Ascii.same f.name s

theorem ofCode?_code (f : DateFormat) : ofCode? f.code = some f := by
  cases f <;> rfl

def day : DatePattern :=
  [.year, .literal '-', .month, .literal '-', .day]

def time : DatePattern :=
  [.hour, .literal ':', .minute, .literal ':', .second]

def dayAndTime : DatePattern := day ++ .literal 'T' :: time

def pattern : DateFormat → DatePattern
  | dateOnly => day
  | timeOnly => time
  | isoDateTime => dayAndTime
  | isoDateTimeWithMilliseconds => dayAndTime ++ [.pointMillis]
  | isoDateTimeWithOffset => dayAndTime ++ [.offset]
  | isoDateTimeUtc => dayAndTime ++ [.literal 'Z']
  | isoDateTimeWithMillisecondsUtc => dayAndTime ++ [.pointMillis, .literal 'Z']
  | dateDays => [.day]
  | dateMonths => [.month]
  | dateYears => [.year]
  | timeOn => [.hour, .literal ':', .minute]
  | timeFull => time ++ [.pointMillis]
  | timeHours => [.hour]
  | timeMinutes => [.minute]
  | timeSeconds => [.second]
  | timeMilliseconds => [.millis]

/-- A pattern that ends in `Z` is written in universal time. -/
def isUtc : DateFormat → Bool
  | isoDateTimeUtc | isoDateTimeWithMillisecondsUtc => true
  | _ => false

/-- Formats other than the two in universal time keep the offset of the instant. -/
def render (f : DateFormat) (t : Timestamp) : String :=
  if f.isUtc then f.pattern.write t.utc 0 else f.pattern.write t.atLocal t.offset

/-- Whether the pattern covers the text. Each field has to be in its own range, so a day may be
one that its month does not have. -/
def accepts (f : DateFormat) (s : String) : Bool := (f.pattern.read? s.toList).isSome

end DateFormat

end RecordSearch
