/-
# Reading moments

A date and a time of day with an offset from universal time. Blanks may stand in front of
the numbers and of the signs between them, numbers need no zeros in front, and the year may
have a sign and then any number of digits.
-/

import ClusterKeeper.Calendar.Moment
import ClusterKeeper.Text.Blank

namespace ClusterKeeper.Moment

/-- Leaves out white space. -/
def skipWhite (cs : List Char) : List Char := cs.dropWhile Text.isWhite

/-- Takes a number of at most a number of digits, and one at least, behind white space. -/
def number? (width : Nat) (cs : List Char) : Option (Nat × List Char) :=
  let ds := (cs.take width).takeWhile Char.isDigit
  if ds.isEmpty then none
  else some (ds.foldl (fun n d => 10 * n + (d.toNat - '0'.toNat)) 0, cs.drop ds.length)

/-- Takes a number behind white space. -/
def field? (width : Nat) (cs : List Char) : Option (Nat × List Char) :=
  number? width (skipWhite cs)

/-- Takes a year. -/
def year? (cs : List Char) : Option (Int × List Char) :=
  match skipWhite cs with
  | '-' :: cs => (number? cs.length cs).map fun (n, rest) => (-(n : Int), rest)
  | '+' :: cs => (number? cs.length cs).map fun (n, rest) => ((n : Int), rest)
  | cs => (number? 4 cs).map fun (n, rest) => ((n : Int), rest)

/-- Takes a sign behind white space. -/
def sign? (c : Char) (cs : List Char) : Option (List Char) :=
  match skipWhite cs with
  | d :: cs => if d = c then some cs else none
  | [] => none

/-- Takes a date. -/
def date? (cs : List Char) : Option (Date × List Char) := do
  let (year, cs) ← year? cs
  let (month, cs) ← field? 2 (← sign? '-' cs)
  let (day, cs) ← field? 2 (← sign? '-' cs)
  let date : Date := { year, month, day }
  if date.isValid && -262143 ≤ year && year ≤ 262142 then some (date, cs) else none

/-- Takes the part of a second, if there is one; of its digits nine count. -/
def fraction? (cs : List Char) : Option (Nat × List Char) :=
  match cs with
  | '.' :: cs => do
    let (n, rest) ← number? 9 cs
    return (n * Nat.pow 10 (9 - (cs.length - rest.length)), rest.dropWhile Char.isDigit)
  | cs => some (0, cs)

/-- Takes a time of day: its whole seconds, and nanoseconds. The sixtieth second is a leap
second. -/
def time? (cs : List Char) : Option (Nat × Nat × List Char) := do
  let (hour, cs) ← field? 2 cs
  let (minute, cs) ← field? 2 (← sign? ':' cs)
  let (second, cs) ← field? 2 (← sign? ':' cs)
  let (nanos, cs) ← fraction? cs
  if 23 < hour || 59 < minute || 60 < second then none
  let seconds := hour * 3600 + minute * 60 + min second 59
  -- A leap second is kept in the nanoseconds of the second before it.
  return (seconds, if second = 60 then nanos + nanosPerSecond else nanos, cs)

/-- Takes two digits. -/
def twoDigits? (cs : List Char) : Option (Nat × List Char) :=
  match cs with
  | a :: b :: rest => if a.isDigit && b.isDigit then number? 2 (a :: b :: rest) else none
  | _ => none

/-- Takes the offset from universal time, in seconds: none at all, or hours and minutes in
either direction, by less than a day. -/
def offset? (cs : List Char) : Option (Int × List Char) := do
  let cs := skipWhite cs
  if (cs.take 3).map Char.toUpper = ['U', 'T', 'C'] then return (0, cs.drop 3)
  match cs with
  | [] => none
  | c :: rest =>
    if c = 'Z' ∨ c = 'z' then return (0, rest)
    -- The minus sign proper is a sign as well as the hyphen.
    if !(c = '+' ∨ c = '-' ∨ c = '\u2212') then none
    let (hours, rest) ← twoDigits? rest
    let (minutes, rest) ← twoDigits? (rest.dropWhile fun c => c == ':' || Text.isWhite c)
    if 23 < hours || 59 < minutes then none
    let seconds : Int := hours * 3600 + minutes * 60
    return (if c = '+' then seconds else -seconds, rest)

/-- The moment that a text states. -/
def parse? (text : String) : Option Moment := do
  let (date, cs) ← date? text.toList
  match cs with
  | [] => none
  | c :: cs =>
    if !(c = 'T' ∨ c = 't' ∨ c = ' ') then none
    let (seconds, nanos, cs) ← time? cs
    let (offset, cs) ← offset? cs
    if !(skipWhite cs).isEmpty then none
    return { seconds := date.toDays * 86400 + seconds - offset, nanos }

end ClusterKeeper.Moment
