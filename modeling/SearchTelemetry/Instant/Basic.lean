import SearchTelemetry.Text.Numeral
/-!
# Instant — points in time

An instant counts seconds from the first of January 1970, in a calendar whose days all have 86400 seconds, and nanoseconds
within the second.  A leap second has no count of its own: it is the second before it with 10^9 nanoseconds or more.

`Civil` is the same instant by year, month, day and time of day; `civilOfDays` and `daysOfCivil` go between the two.  Years
begin in March inside these functions, so that the day that leap years add is the last of its year.
-/
namespace SearchTelemetry

/-- A point in time. -/
structure Instant where
  /-- Seconds since the first of January 1970. -/
  seconds : Int
  /-- Nanoseconds within the second; from 10^9 on, within the leap second that follows it. -/
  nanos : Nat
deriving DecidableEq, Repr, Inhabited

namespace Instant

/-! ## The calendar -/

/-- Days from the first of January 1970 to a day of the calendar. -/
def daysOfCivil (year month day : Int) : Int :=
  let y := if month ≤ 2 then year - 1 else year
  let m := (month + 9) % 12
  365 * y + y / 4 - y / 100 + y / 400 + (153 * m + 2) / 5 + day - 1 - 719468

/-- The year, month and day of a number of days from the first of January 1970. -/
def civilOfDays (days : Int) : Int × Int × Int :=
  let z := days + 719468
  let era := z / 146097
  let doe := z % 146097
  let yoe := (doe - doe / 1460 + doe / 36524 - doe / 146096) / 365
  let doy := doe - (365 * yoe + yoe / 4 - yoe / 100)
  let mp := (5 * doy + 2) / 153
  let day := doy - (153 * mp + 2) / 5 + 1
  let month := if mp < 10 then mp + 3 else mp - 9
  let year := yoe + era * 400 + (if month ≤ 2 then 1 else 0)
  (year, month, day)

/-- A year with a 29th of February. -/
def isLeapYear (year : Int) : Bool :=
  year % 4 == 0 && (year % 100 != 0 || year % 400 == 0)

/-- How many days a month has. -/
def daysInMonth (year month : Int) : Int :=
  if month = 2 then (if isLeapYear year then 29 else 28)
  else if month = 4 ∨ month = 6 ∨ month = 9 ∨ month = 11 then 30
  else 31

/-- The day of the week, Monday being 0. -/
def weekdayOfDays (days : Int) : Int :=
  (days + 3) % 7

/-- The earliest and the latest year that an instant may lie in. -/
def minYear : Int := -262143

/-- See `minYear`. -/
def maxYear : Int := 262142

/-- A date and a time of day at some place, and how far that place is ahead of UTC. -/
structure Civil where
  year : Int
  month : Int
  day : Int
  hour : Int
  minute : Int
  /-- Up to 60, which is a leap second. -/
  second : Int
  nanos : Nat
  /-- Seconds ahead of UTC. -/
  offset : Int
  /-- The day of the week that is claimed, Monday being 0. -/
  weekday : Option Int
deriving DecidableEq, Repr

/-- The day is one of the calendar. -/
def Civil.dateOk (c : Civil) : Bool :=
  minYear ≤ c.year && c.year ≤ maxYear && 1 ≤ c.month && c.month ≤ 12 && 1 ≤ c.day
    && c.day ≤ daysInMonth c.year c.month

/-- The time is one of a day. -/
def Civil.timeOk (c : Civil) : Bool :=
  0 ≤ c.hour && c.hour ≤ 23 && 0 ≤ c.minute && c.minute ≤ 59 && 0 ≤ c.second && c.second ≤ 60

/-- The instant of a date and time, if there is such a date and time, if the day of the week is right and if the offset is
less than a day. -/
def ofCivil? (c : Civil) : Option Instant :=
  let days := daysOfCivil c.year c.month c.day
  let second := if c.second = 60 then 59 else c.second
  let nanos := if c.second = 60 then c.nanos + 1000000000 else c.nanos
  let seconds := days * 86400 + c.hour * 3600 + c.minute * 60 + second - c.offset
  let year := (civilOfDays (seconds / 86400)).1
  if c.dateOk ∧ c.timeOk ∧ c.nanos < 1000000000 ∧ -86400 < c.offset ∧ c.offset < 86400
      ∧ c.weekday.all (· == weekdayOfDays days) ∧ minYear ≤ year ∧ year ≤ maxYear then
    some ⟨seconds, nanos⟩
  else none

/-- The date and time of an instant in UTC. -/
def toCivil (t : Instant) : Civil :=
  let (year, month, day) := civilOfDays (t.seconds / 86400)
  let rest := t.seconds % 86400
  let leap := 1000000000 ≤ t.nanos
  { year, month, day
    hour := rest / 3600
    minute := rest / 60 % 60
    second := if leap then rest % 60 + 1 else rest % 60
    nanos := if leap then t.nanos - 1000000000 else t.nanos
    offset := 0
    weekday := none }

/-! ## Text -/

/-- A year in four digits, with a sign if it needs more or is below zero. -/
def yearChars (year : Int) : List Char :=
  if 0 ≤ year ∧ year ≤ 9999 then Numeral.padded 4 year.toNat
  else (if year < 0 then '-' else '+') :: Numeral.padded 4 year.natAbs

/-- The part of the second: none, three, six or nine digits, the fewest that lose nothing. -/
def fractionChars (nanos : Nat) : List Char :=
  if nanos = 0 then []
  else if nanos % 1000000 = 0 then '.' :: Numeral.padded 3 (nanos / 1000000)
  else if nanos % 1000 = 0 then '.' :: Numeral.padded 6 (nanos / 1000)
  else '.' :: Numeral.padded 9 nanos

/-- The date and time of an instant in UTC, without a zone. -/
def localChars (t : Instant) : List Char :=
  let c := t.toCivil
  let two (n : Int) : List Char := Numeral.padded 2 n.toNat
  yearChars c.year ++ '-' :: two c.month ++ '-' :: two c.day ++ 'T' :: two c.hour ++ ':' :: two c.minute
    ++ ':' :: two c.second ++ fractionChars c.nanos

/-- The text of an instant: RFC 3339 in UTC with the letter Z. -/
def chars (t : Instant) : List Char :=
  t.localChars ++ ['Z']

/-- The text of an instant as a string. -/
def text (t : Instant) : String :=
  String.ofList t.chars

/-- The text of an instant with the zone as a number. -/
def numericText (t : Instant) : String :=
  String.ofList (t.localChars ++ ['+', '0', '0', ':', '0', '0'])

end Instant
end SearchTelemetry
