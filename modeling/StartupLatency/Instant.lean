/-!
Points in time with nanoseconds, over the proleptic Gregorian calendar from year -262143 to year
262142. A leap second is written on second 59 of a minute, with nanoseconds from `10 ^ 9` up.
-/

namespace StartupLatency

structure CivilDate where
  year : Int
  month : Nat
  day : Nat
deriving DecidableEq, Inhabited

namespace CivilDate

def isLeapYear (year : Int) : Bool := year % 4 = 0 && (year % 100 != 0 || year % 400 = 0)

def daysInMonth (year : Int) (month : Nat) : Nat :=
  if month = 2 then (if isLeapYear year then 29 else 28)
  else if month = 4 ∨ month = 6 ∨ month = 9 ∨ month = 11 then 30
  else 31

def isValid (date : CivilDate) : Bool :=
  1 ≤ date.month && date.month ≤ 12 && 1 ≤ date.day && date.day ≤ daysInMonth date.year date.month

/-- Days since 1970-01-01. Years begin in March here, so that the leap day comes last. -/
def toDays (date : CivilDate) : Int :=
  let year := if date.month ≤ 2 then date.year - 1 else date.year
  let month : Int := (date.month + 9) % 12
  let era := year / 400
  let yearOfEra := year % 400
  let dayOfYear := (153 * month + 2) / 5 + date.day - 1
  era * 146097 + (yearOfEra * 365 + yearOfEra / 4 - yearOfEra / 100 + dayOfYear) - 719468

-- The date of a day count: an era is 400 years, and a year begins in March.
def ofDays (days : Int) : CivilDate :=
  let shifted := days + 719468
  let era := shifted / 146097
  let dayOfEra := shifted % 146097
  let yearOfEra := (dayOfEra - dayOfEra / 1460 + dayOfEra / 36524 - dayOfEra / 146096) / 365
  let dayOfYear := dayOfEra - (365 * yearOfEra + yearOfEra / 4 - yearOfEra / 100)
  let month := (5 * dayOfYear + 2) / 153
  let day := dayOfYear - (153 * month + 2) / 5 + 1
  let year := yearOfEra + era * 400
  if month < 10 then ⟨year, (month + 3).toNat, day.toNat⟩
  else ⟨year + 1, (month - 9).toNat, day.toNat⟩

end CivilDate

def Instant.minSecs : Int := -8334601228800

def Instant.maxSecs : Int := 8210266876799

structure Instant where
  -- Unix seconds, leap seconds not counted.
  secs : Int
  nanos : Nat
  in_range : Instant.minSecs ≤ secs ∧ secs ≤ Instant.maxSecs
  nanos_lt : nanos < 2000000000
  leap_on_59 : 1000000000 ≤ nanos → secs % 60 = 59
deriving DecidableEq

namespace Instant

def ofParts? (secs : Int) (nanos : Nat) : Option Instant :=
  if valid : (minSecs ≤ secs ∧ secs ≤ maxSecs) ∧ nanos < 2000000000 ∧
      (1000000000 ≤ nanos → secs % 60 = 59) then
    some ⟨secs, nanos, valid.1, valid.2.1, valid.2.2⟩
  else none

def epoch : Instant := ⟨0, 0, by decide, by decide, by decide⟩

instance : Inhabited Instant := ⟨epoch⟩

def isLeapSecond (t : Instant) : Bool := 1000000000 ≤ t.nanos

def secondOfDay (t : Instant) : Int := t.secs % 86400

def dayNumber (t : Instant) : Int := t.secs / 86400

def date (t : Instant) : CivilDate := .ofDays t.dayNumber

/-- Nanoseconds from `start` to `t`. A leap second counts as a second of its own exactly when the
other instant comes later in its day than the start of that minute's last second. -/
def nanosSince (t start : Instant) : Int :=
  let counted : Int :=
    if start.secondOfDay < t.secondOfDay then (if start.isLeapSecond then 1 else 0)
    else if t.secondOfDay < start.secondOfDay then (if t.isLeapSecond then -1 else 0)
    else 0
  (t.secs - start.secs + counted) * 1000000000 + ((t.nanos : Int) - start.nanos)

def millisSince (t start : Instant) : Int := (t.nanosSince start).tdiv 1000000

/-- A number of milliseconds later. From within a leap second the count goes on inside it as long
as it lasts. The last instant stays where it is. -/
def addMillis (t : Instant) (millis : Nat) : Instant :=
  let nanos := t.nanos + millis % 1000 * 1000000
  let moved : Option Instant :=
    if t.isLeapSecond && millis < 1000 && nanos < 2000000000 then ofParts? t.secs nanos
    else
      let nanos := if t.isLeapSecond then nanos - 1000000000 else nanos
      ofParts? (t.secs + (millis / 1000 : Nat) + (nanos / 1000000000 : Nat)) (nanos % 1000000000)
  moved.getD t

end Instant
end StartupLatency
