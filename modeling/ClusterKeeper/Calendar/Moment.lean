/-
# Moments

A point in time by the seconds since the beginning of 1970 and the nanoseconds since then,
written as a date of the Gregorian calendar and a time of day. A leap second is the end of
the second before it, with more than a second's nanoseconds.
-/

import ClusterKeeper.Duration

namespace ClusterKeeper

/-- A point in time. -/
structure Moment where
  seconds : Int
  nanos : Nat
  deriving DecidableEq, Repr, Inhabited

/-- A day of the Gregorian calendar, which is taken to have been in use always. -/
structure Date where
  year : Int
  month : Nat
  day : Nat
  deriving DecidableEq, Repr

namespace Date

/-- Whether a year has a leap day. -/
def isLeap (year : Int) : Bool := year % 4 == 0 && (year % 100 != 0 || year % 400 == 0)

/-- The number of days of a month. -/
def daysInMonth (year : Int) (month : Nat) : Nat :=
  if month = 2 then if isLeap year then 29 else 28
  else if month = 4 ∨ month = 6 ∨ month = 9 ∨ month = 11 then 30
  else 31

/-- Whether the calendar has this day. -/
def isValid (d : Date) : Bool :=
  1 ≤ d.month && d.month ≤ 12 && 1 ≤ d.day && d.day ≤ daysInMonth d.year d.month

/-- The days from the beginning of March of the year zero to the beginning of 1970. -/
def daysBefore1970 : Int := 719468

/-- The days of 400 years. -/
def daysOfCycle : Int := 146097

/-- The days since the beginning of 1970. Years are taken to begin with March, so that the
leap day is the last of its year. -/
def toDays (d : Date) : Int :=
  let year := if d.month ≤ 2 then d.year - 1 else d.year
  let month : Int := if d.month ≤ 2 then d.month + 9 else d.month - 3
  let cycle := year / 400
  let yearOfCycle := year % 400
  -- From March on, five months have 153 days.
  let dayOfYear := (153 * month + 2) / 5 + d.day - 1
  let dayOfCycle := yearOfCycle * 365 + yearOfCycle / 4 - yearOfCycle / 100 + dayOfYear
  cycle * daysOfCycle + dayOfCycle - daysBefore1970

/-- The day that is a number of days after the beginning of 1970. -/
def ofDays (days : Int) : Date :=
  let days := days + daysBefore1970
  let cycle := days / daysOfCycle
  let dayOfCycle := days % daysOfCycle
  -- The leap days before it are taken off, so that all years have 365 days.
  let yearOfCycle :=
    (dayOfCycle - dayOfCycle / 1460 + dayOfCycle / 36524 - dayOfCycle / 146096) / 365
  let dayOfYear := dayOfCycle - (365 * yearOfCycle + yearOfCycle / 4 - yearOfCycle / 100)
  let month := (5 * dayOfYear + 2) / 153
  let day := dayOfYear - (153 * month + 2) / 5 + 1
  let year := yearOfCycle + cycle * 400
  { year := if month < 10 then year else year + 1
    month := (if month < 10 then month + 3 else month - 9).toNat
    day := day.toNat }

end Date

/-- A number with zeros in front up to a number of digits. -/
def padded (width n : Nat) : String :=
  let digits := Nat.toDigits 10 n
  String.ofList (List.replicate (width - digits.length) '0' ++ digits)

namespace Moment

/-- All nanoseconds since the beginning of 1970. -/
def toNanos (m : Moment) : Int := m.seconds * nanosPerSecond + m.nanos

/-- A number of seconds earlier. -/
def before (m : Moment) (seconds : Nat) : Moment := { m with seconds := m.seconds - seconds }

/-- The whole hours from one moment to a later one; before it, there are none or fewer. -/
def hoursSince (now since : Moment) : Int :=
  Int.tdiv (now.toNanos - since.toNanos) (3600 * nanosPerSecond)

/-- The year, in four digits or with a sign. -/
def yearText (year : Int) : String :=
  if 0 ≤ year ∧ year ≤ 9999 then padded 4 year.toNat
  else (if year < 0 then "-" else "+") ++ padded 4 year.natAbs

/-- The part of a second, in the fewest groups of three digits. -/
def fractionText (nanos : Nat) : String :=
  if nanos = 0 then ""
  else if nanos % nanosPerMilli = 0 then "." ++ padded 3 (nanos / nanosPerMilli)
  else if nanos % nanosPerMicro = 0 then "." ++ padded 6 (nanos / nanosPerMicro)
  else "." ++ padded 9 nanos

/-- Date and time with a sign between them. -/
def textWith (separator : String) (m : Moment) : String :=
  let date := Date.ofDays (m.seconds / 86400)
  let time := (m.seconds % 86400).toNat
  let leap := m.nanos / nanosPerSecond
  yearText date.year ++ "-" ++ padded 2 date.month ++ "-" ++ padded 2 date.day ++ separator
    ++ padded 2 (time / 3600) ++ ":" ++ padded 2 (time / 60 % 60) ++ ":"
    ++ padded 2 (time % 60 + leap) ++ fractionText (m.nanos % nanosPerSecond)

/-- The moment for a reader. -/
def text (m : Moment) : String := m.textWith " " ++ " UTC"

/-- The moment as documents have it. -/
def stamp (m : Moment) : String := m.textWith "T" ++ "Z"

end Moment

end ClusterKeeper
