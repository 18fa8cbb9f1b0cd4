/-
# Finite doubles

The finite numbers of the 64-bit binary format, as a sign and a magnitude code: eleven
exponent bits over fifty-two fraction bits, read as one number. Larger codes are larger
magnitudes and the code of infinity is not among them. Arithmetic rounds an exact
quotient of natural numbers to the nearest double, a half to the even one, and has no
result where that would be infinite.
-/

namespace ClusterKeeper

/-- A finite double: its sign, and its exponent and fraction bits as one number. -/
structure Binary64 where
  negative : Bool
  code : Fin 0x7FF0000000000000
  deriving DecidableEq, Repr

namespace Binary64

/-- Zero with the given sign. -/
def zero (negative : Bool) : Binary64 := ⟨negative, 0⟩

instance : Inhabited Binary64 := ⟨zero false⟩

def isZero (x : Binary64) : Bool := x.code == 0

/-- The sign turned round. -/
def neg (x : Binary64) : Binary64 := { x with negative := !x.negative }

/-- How many magnitudes share their exponent bits. -/
def codesPerExponent : Nat := 0x10000000000000

/-- The biased exponent, `0` for the subnormal numbers. -/
def exponentBits (x : Binary64) : Nat := x.code.val / codesPerExponent

/-- The magnitude is `significand * 2 ^ scale`. -/
def significand (x : Binary64) : Nat :=
  if x.exponentBits = 0 then x.code.val else codesPerExponent + x.code.val % codesPerExponent

/-- The power of two that the significand counts. -/
def scale (x : Binary64) : Int :=
  if x.exponentBits = 0 then -1074 else x.exponentBits - 1075

/-- The quotient rounded to the nearest natural number, a half to the even one. -/
def roundDiv (num den : Nat) : Nat :=
  let q := num / den
  let twice := 2 * (num % den)
  if twice < den then q
  else if den < twice then q + 1
  else q + q % 2

/-- `num * 2 ^ shift / den` as a quotient of natural numbers. -/
def scaled (num den : Nat) (shift : Int) : Nat × Nat :=
  (num <<< shift.toNat, den <<< (-shift).toNat)

/-- The power of two that the significand of `num / den` counts: fifty-two below that
of its leading bit, and no lower than the smallest there is. -/
def scaleOf (num den : Nat) : Int :=
  let guess : Int := (num.log2 : Int) - den.log2 - 52
  let (n, d) := scaled num den (-guess)
  max (-1074) (if n / d < codesPerExponent then guess - 1 else guess)

/-- The double nearest to `num / den`, if it is finite. -/
def ofRatio (negative : Bool) (num den : Nat) : Option Binary64 :=
  if num = 0 then some (zero negative)
  else
    let q := scaleOf num den
    let (n, d) := scaled num den (-q)
    -- A significand that is rounded up to the next power of two carries into the exponent, and
    -- a subnormal one, without its leading bit, has the exponent bits zero.
    let code := (q + 1074).toNat * codesPerExponent + roundDiv n d
    if h : code < 0x7FF0000000000000 then some ⟨negative, code, h⟩ else none

/-- The double nearest to a natural number. -/
def ofNat (n : Nat) : Option Binary64 := ofRatio false n 1

/-- The double nearest to the product. -/
def mul (x y : Binary64) : Option Binary64 :=
  let (n, d) := scaled (x.significand * y.significand) 1 (x.scale + y.scale)
  ofRatio (x.negative != y.negative) n d

/-- The double nearest to the quotient; there is none by zero. -/
def div (x y : Binary64) : Option Binary64 :=
  if y.isZero then none
  else
    let (n, d) := scaled x.significand y.significand (x.scale - y.scale)
    ofRatio (x.negative != y.negative) n d

end Binary64

end ClusterKeeper
