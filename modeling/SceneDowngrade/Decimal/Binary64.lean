/-!
# Binary64

Non-negative numbers of the 64-bit binary floating-point format, held as a significand and a power
of two, with products and quotients rounded to the nearest number, ties to the even significand.
Everything is exact arithmetic on natural numbers.
-/
namespace SceneDowngrade

/-- The number `significand * 2 ^ exponent`. -/
structure Binary64 where
  significand : Nat
  exponent : Int
  deriving DecidableEq, Repr

namespace Binary64

def minExponent : Int := -1074

def maxExponent : Int := 971

def precision : Nat := 53

/-- The quotient rounded to the nearest integer, ties to even. -/
def roundDiv (num den : Nat) : Nat :=
  let below := num / den
  let twice := 2 * (num % den)
  if twice < den then below
  else if den < twice then below + 1
  else if below % 2 = 0 then below
  else below + 1

def scale (num den : Nat) (power : Int) : Nat × Nat :=
  (num * Nat.pow 2 power.toNat, den * Nat.pow 2 (-power).toNat)

/-- The exponent with which the fraction has a significand of full precision. -/
def fittingExponent (num den : Nat) : Int :=
  let guess : Int := (num.log2 : Int) - den.log2 - precision
  let scaled := scale num den (-guess)
  if scaled.1 < Nat.pow 2 precision * scaled.2 then guess else guess + 1

/-- The number nearest to a fraction. The exponent has no upper bound. -/
def ofFraction (num den : Nat) : Binary64 :=
  if num = 0 then ⟨0, minExponent⟩
  else
    let exponent := max (fittingExponent num den) minExponent
    let scaled := scale num den (-exponent)
    let significand := roundDiv scaled.1 scaled.2
    if significand = Nat.pow 2 precision then ⟨Nat.pow 2 (precision - 1), exponent + 1⟩
    else ⟨significand, exponent⟩

def ofNat (n : Nat) : Binary64 := ofFraction n 1

def fraction (x : Binary64) : Nat × Nat := scale x.significand 1 x.exponent

def isFinite (x : Binary64) : Bool := x.exponent ≤ maxExponent

def mul (x y : Binary64) : Binary64 :=
  let a := x.fraction
  let b := y.fraction
  ofFraction (a.1 * b.1) (a.2 * b.2)

def div (x y : Binary64) : Binary64 :=
  let a := x.fraction
  let b := y.fraction
  ofFraction (a.1 * b.2) (a.2 * b.1)

def tenPower (k : Nat) : Binary64 := ofNat (Nat.pow 10 k)

def maxTenPower : Nat := 308

/-- The number divided `times` times by the largest power of ten, as long as it is not zero. -/
def lower : (times : Nat) → Binary64 → Binary64
  | 0, x => x
  | times + 1, x => if x.significand = 0 then x else lower times (x.div (tenPower maxTenPower))

/-- The integer `n` times `10 ^ power`, by one rounding of each step: a product with a power of ten,
or quotients by powers of ten no larger than the largest. None if the result is out of range. -/
def ofDecimal? (n : Nat) (power : Int) : Option Binary64 :=
  let x := ofNat n
  if power < 0 then
    let down := (-power).toNat
    let times := (down - 1) / maxTenPower
    some ((lower times x).div (tenPower (down - maxTenPower * times)))
  else if power ≤ maxTenPower then
    let y := x.mul (tenPower power.toNat)
    if y.isFinite then some y else none
  else if n = 0 then some x
  else none

end Binary64

end SceneDowngrade
