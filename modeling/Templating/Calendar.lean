/-!
# Calendar dates

A clock counts seconds from the start of 1970 and knows how far local time is
ahead of it. Its local reading is a date of the Gregorian calendar and a time of
day. Weeks can be counted in three ways: from the first Sunday or the first
Monday of the year, or as ISO weeks, which belong to the year of their Thursday.

Main definitions:

* `Clock` and `Clock.moment`;
* `Moment`, with the weekday, the week numbers and the ISO year.
-/

namespace Templating
namespace Calendar

section Years

/-- Whether a year has a 29 February. -/
def isLeap (year : Int) : Bool :=
  year % 4 = 0 && (year % 100 != 0 || year % 400 = 0)

/-- The days from the start of year 1 to the start of a year. -/
def daysBefore (year : Int) : Int :=
  365 * (year - 1) + (year - 1) / 4 - (year - 1) / 100 + (year - 1) / 400

/-- The year of a day that is counted from the start of year 1. The mean length
of a year gives it up to one. -/
def yearOf (day : Int) : Int :=
  let guess := day * 400 / 146097 + 1
  if day < daysBefore guess then guess - 1
  else if daysBefore (guess + 1) ≤ day then guess + 1
  else guess

/-- The number of days in each month of a year. -/
def monthLengths (year : Int) : List Nat :=
  [31, if isLeap year then 29 else 28, 31, 30, 31, 30, 31, 31, 30, 31, 30, 31]

/-- The month and the day of the month, both from one, of a day that is counted
from zero; `month` is the number of the first of the given months. -/
def monthAndDay (month : Nat) : List Nat → Nat → Nat × Nat
  | [], day => (month, day + 1)
  | length :: rest, day =>
      if day < length then (month, day + 1)
      else monthAndDay (month + 1) rest (day - length)

end Years

section Moment

/-- A date and a time of day in local time; `dayOfYear` counts from zero, and
`weekday` from Monday as zero. -/
structure Moment where
  year : Int
  dayOfYear : Nat
  month : Nat
  day : Nat
  weekday : Nat
  hour : Nat
  minute : Nat
  second : Nat
  nanos : Nat
  /-- Seconds since the start of 1970, wherever the clock stands. -/
  timestamp : Int
  /-- Seconds that local time is ahead. -/
  offset : Int
deriving DecidableEq, Repr

namespace Moment

/-- The quarter of the year, from one. -/
def quarter (m : Moment) : Nat :=
  (m.month - 1) / 3 + 1

/-- The hour on a twelve-hour dial. -/
def hour12 (m : Moment) : Nat :=
  if m.hour % 12 = 0 then 12 else m.hour % 12

/-- The weekday from Sunday as zero. -/
def weekdayFromSunday (m : Moment) : Nat :=
  (m.weekday + 1) % 7

/-- The number of Sundays of the year up to the day. -/
def weekFromSunday (m : Moment) : Nat :=
  (m.dayOfYear + 7 - m.weekdayFromSunday) / 7

/-- The number of Mondays of the year up to the day. -/
def weekFromMonday (m : Moment) : Nat :=
  (m.dayOfYear + 7 - m.weekday) / 7

/-- The number of days of a year. -/
def yearLength (year : Int) : Int :=
  if isLeap year then 366 else 365

/-- The Thursday of the week, as a day of the year counted from zero. It may lie
in the year before or after. -/
def thursday (m : Moment) : Int :=
  m.dayOfYear + 3 - m.weekday

/-- The year to which the week belongs. -/
def isoYear (m : Moment) : Int :=
  if m.thursday < 0 then m.year - 1
  else if yearLength m.year ≤ m.thursday then m.year + 1
  else m.year

/-- The number of the week in the year to which it belongs. -/
def isoWeek (m : Moment) : Nat :=
  let thursday :=
    if m.thursday < 0 then m.thursday + yearLength (m.year - 1)
    else if yearLength m.year ≤ m.thursday then m.thursday - yearLength m.year
    else m.thursday
  (thursday / 7).toNat + 1

end Moment

end Moment

end Calendar

section Clock

/-- A reading of the wall clock: seconds since the start of 1970, nanoseconds
after them, and the seconds that local time is ahead. -/
structure Clock where
  seconds : Int
  nanos : Nat
  offset : Int
deriving DecidableEq, Repr

open Calendar

/-- The local date and time. -/
def Clock.moment (clock : Clock) : Moment :=
  let total := clock.seconds + clock.offset
  let days := total / 86400 + daysBefore 1970
  let time := (total % 86400).toNat
  let year := yearOf days
  let dayOfYear := (days - daysBefore year).toNat
  let (month, day) := monthAndDay 1 (monthLengths year) dayOfYear
  { year, dayOfYear, month, day
    weekday := (days % 7).toNat
    hour := time / 3600
    minute := time / 60 % 60
    second := time % 60
    nanos := clock.nanos
    timestamp := clock.seconds
    offset := clock.offset }

end Clock

end Templating
