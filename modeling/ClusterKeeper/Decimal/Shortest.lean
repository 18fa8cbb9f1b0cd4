/-
# The shortest decimal of a double

Of the decimals that read back as a given double, the one with the fewest digits, and of
those the nearest. A decimal has an exponent `e` such that its leading digit counts
`10 ^ e`; it is written positionally for exponents from `-5` to `15`, with at least one
digit after the point, and with a signed exponent beyond.
-/

import ClusterKeeper.Decimal.Binary64

namespace ClusterKeeper

/-- Decimal digits, the first of which counts `10 ^ exponent`. -/
structure Decimal where
  digits : List Char
  exponent : Int
  deriving DecidableEq, Repr

namespace Binary64

/-- The exponent of the leading decimal digit of `num / den`. -/
def leadingExponent (num den : Nat) : Int :=
  if den ≤ num then ((Nat.toDigits 10 (num / den)).length : Int) - 1
  else
    let places := ((List.range 400).find? fun s => den ≤ num * Nat.pow 10 s).getD 0
    Int.neg places

/-- The points of a grid that lie between two bounds, of the two neighbours of a value.
All three are given as multiples of `1 / den` of the grid's distance. -/
def gridPoint (low mid high den : Nat) (closed : Bool) : Option Nat :=
  let inside (n : Nat) : Bool :=
    if closed then low ≤ n * den && n * den ≤ high else low < n * den && n * den < high
  let below := mid / den
  let above := below + 1
  if mid % den = 0 then some below
  else
    match inside below, inside above with
    | true, true => some (roundDiv mid den)
    | true, false => some below
    | false, true => some above
    | false, false => none

/-- The shortest decimal that reads back as the magnitude of `x`. -/
def shortest (x : Binary64) : Decimal :=
  if x.isZero then ⟨['0'], 0⟩
  else
    let m := x.significand
    -- In quarters of a unit: half a unit either way reads back, but below a power of two the
    -- doubles lie twice as close.
    let narrow := x.code.val % codesPerExponent = 0 ∧ 1 < x.exponentBits
    let low := if narrow then 4 * m - 1 else 4 * m - 2
    let (num, den) := scaled (4 * m) 1 (x.scale - 2)
    let lead := leadingExponent num den
    -- A grid with `count` digits behind the leading one.
    let attempt (count : Nat) : Option Decimal :=
      let unit : Int := lead - count
      let (a, b) := scaled 1 1 (x.scale - 2)
      let a := a * Nat.pow 10 (-unit).toNat
      let b := b * Nat.pow 10 unit.toNat
      (gridPoint (low * a) (4 * m * a) ((4 * m + 2) * a) b (m % 2 == 0)).map fun n =>
        -- The upper neighbour may have one digit more than the grid, and then it ends in zeros.
        let digits := Nat.toDigits 10 n
        ⟨(digits.reverse.dropWhile (· == '0')).reverse, unit + digits.length - 1⟩
    ((List.range 17).findSome? attempt).getD ⟨['0'], 0⟩

end Binary64

namespace Decimal

/-- Written with its point in place, and at least one digit after it. -/
def positional (d : Decimal) : List Char :=
  if d.exponent < 0 then
    '0' :: '.' :: List.replicate (-d.exponent - 1).toNat '0' ++ d.digits
  else
    let whole := d.exponent.toNat + 1
    let fraction := d.digits.drop whole
    (d.digits.take whole).rightpad whole '0' ++ '.' ::
      (if fraction.isEmpty then ['0'] else fraction)

/-- Written with one digit before the point and a signed exponent of ten. -/
def scientific (d : Decimal) : List Char :=
  let mantissa := match d.digits with
    | [] => []
    | [c] => [c]
    | c :: cs => c :: '.' :: cs
  mantissa ++ 'e' :: (if d.exponent < 0 then '-' else '+') ::
    Nat.toDigits 10 d.exponent.natAbs

/-- Exponents from `-5` to `15` are written positionally. -/
def text (d : Decimal) : List Char :=
  if -5 ≤ d.exponent ∧ d.exponent ≤ 15 then d.positional else d.scientific

end Decimal

/-- The text of a double in a document: its shortest decimal behind its sign. -/
def Binary64.text (x : Binary64) : List Char :=
  (if x.negative then ['-'] else []) ++ x.shortest.text

end ClusterKeeper
