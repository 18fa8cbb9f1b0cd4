/-
# Numerals

A numeral of a document, taken apart into its digits, and the number it stands for. Whole
numerals that fit in 64 bits are exact. Of all others the digits are gathered into a
64-bit significand for as long as they fit, which is rounded to a double and then scaled
by a power of ten, also rounded, so that the result may differ from the nearest double in
its last place.
-/

import ClusterKeeper.Json.Failure

namespace ClusterKeeper.Json

/-- A numeral by its parts. The fraction is empty if there is none, as is the exponent. -/
structure Numeral where
  negative : Bool
  whole : List Char
  fraction : List Char
  exponentNegative : Bool
  exponent : List Char
  deriving DecidableEq, Repr

namespace Numeral

/-- The text goes on with something that no numeral goes on with, or it ends. -/
inductive Fault where
  | broken
  | ended
  deriving DecidableEq, Repr

/-- At least one digit. -/
def scanDigits (cs : List Char) : Except Fault (List Char × List Char) :=
  match cs with
  | [] => .error .ended
  | c :: _ => if c.isDigit then .ok (cs.takeWhile Char.isDigit, cs.dropWhile Char.isDigit)
    else .error .broken

/-- Digits that start with a zero only if it is the only one. -/
def scanWhole (cs : List Char) : Except Fault (List Char × List Char) :=
  match cs with
  | '0' :: c :: rest => if c.isDigit then .error .broken else .ok (['0'], c :: rest)
  | _ => scanDigits cs

/-- Digits behind a point. -/
def scanFraction (cs : List Char) : Except Fault (List Char × List Char) :=
  match cs with
  | '.' :: rest => scanDigits rest
  | _ => .ok ([], cs)

/-- Digits behind a letter and perhaps a sign. -/
def scanExponent (cs : List Char) : Except Fault ((Bool × List Char) × List Char) :=
  match cs with
  | [] => .ok ((false, []), [])
  | c :: rest =>
    if c = 'e' ∨ c = 'E' then
      let (negative, rest) := match rest with
        | '+' :: rest => (false, rest)
        | '-' :: rest => (true, rest)
        | _ => (false, rest)
      (scanDigits rest).map fun (digits, rest) => ((negative, digits), rest)
    else .ok ((false, []), cs)

/-- Takes a numeral off the front of a text. -/
def scan (cs : List Char) : Except Fault (Numeral × List Char) := do
  let (negative, cs) := match cs with
    | '-' :: rest => (true, rest)
    | _ => (false, cs)
  let (whole, cs) ← scanWhole cs
  let (fraction, cs) ← scanFraction cs
  let ((exponentNegative, exponent), cs) ← scanExponent cs
  return (⟨negative, whole, fraction, exponentNegative, exponent⟩, cs)

/-- The number that decimal digits stand for. -/
def digitsValue (ds : List Char) : Nat :=
  ds.foldl (fun n d => 10 * n + (d.toNat - '0'.toNat)) 0

/-- Puts digits behind a significand while the result fits in 64 bits, and counts those
that are put there and those that are left. -/
def gather (significand : Nat) (taken : Nat) : List Char → Nat × Nat × Nat
  | [] => (significand, taken, 0)
  | d :: ds =>
    let longer := 10 * significand + (d.toNat - '0'.toNat)
    -- The first digit that does not fit ends the significand, and all behind it are left.
    if longer < UInt64.size then gather longer (taken + 1) ds
    else (significand, taken, ds.length + 1)

/-- `x * 10 ^ e`, rounded at each step; no step scales by more than `10 ^ 308`. -/
def scaleByTen (x : Binary64) (e : Int) : Option Binary64 :=
  if 308 < e then if x.isZero then some x else none
  else if 0 ≤ e then (Binary64.ofNat (Nat.pow 10 e.toNat)).bind x.mul
  else if h : e < -308 then
    if x.isZero then some x
    else ((Binary64.ofNat (Nat.pow 10 308)).bind x.div).bind fun y => scaleByTen y (e + 308)
  else (Binary64.ofNat (Nat.pow 10 (-e).toNat)).bind x.div
termination_by (-e).toNat

/-- The double that the numeral stands for, if it is finite. -/
def double? (x : Numeral) : Option Binary64 :=
  let (significand, _, left) := gather 0 0 x.whole
  -- Digits left over from the whole part count in the exponent; those of the fraction are lost.
  let (significand, taken, _) := gather significand 0 x.fraction
  let shift : Int := digitsValue x.exponent
  let exponent : Int := left - taken + (if x.exponentNegative then -shift else shift)
  let scaled := (Binary64.ofNat significand).bind fun y => scaleByTen y exponent
  scaled.map fun y => { y with negative := x.negative }

/-- The number that the numeral stands for, if it is in range. A negative zero is a
double. -/
def number? (x : Numeral) : Option Number :=
  if x.fraction.isEmpty && x.exponent.isEmpty then
    let magnitude : Int := digitsValue x.whole
    -- Only a double has a sign when it is zero.
    let exact := if x.negative then
        if magnitude = 0 then none else Number.ofInt? (-magnitude)
      else Number.ofInt? magnitude
    exact.or (x.double?.map .double)
  else x.double?.map .double

end Numeral

end ClusterKeeper.Json
