import SceneDowngrade.Decimal.Binary64
import SceneDowngrade.Text.Basic

/-!
# Shortest decimals

A floating-point number is written with the fewest digits that read back as that number, and among
those with the digits nearest to it. The text is positional for powers of ten near one and
scientific beyond.
-/
namespace SceneDowngrade

/-- The decimal `digits * 10 ^ power`. -/
structure Decimal where
  digits : Nat
  power : Int
  deriving DecidableEq, Repr

namespace Decimal

def scale (num den : Nat) (power : Int) : Nat × Nat :=
  (num * Nat.pow 10 power.toNat, den * Nat.pow 10 (-power).toNat)

/-- The power of ten of the leading digit of a positive fraction. -/
def leadingPower (num den : Nat) : Int :=
  if den ≤ num then ((Nat.toDigits 10 (num / den)).length : Int) - 1
  else
    let count := (Nat.toDigits 10 (den / num)).length
    if den ≤ num * Nat.pow 10 (count - 1) then 1 - (count : Int) else -(count : Int)

/-- The bounds of the fractions that round to a number, in quarters of its last place. -/
def bounds (x : Binary64) : Nat × Nat :=
  let isLeast :=
    x.significand = Nat.pow 2 (Binary64.precision - 1) && Binary64.minExponent < x.exponent
  (4 * x.significand - (if isLeast then 1 else 2), 4 * x.significand + 2)

/-- Whether the decimal reads back as the number. The bounds do so for an even significand. -/
def readsBack (x : Binary64) (decimal : Decimal) : Bool :=
  let value := scale decimal.digits 1 decimal.power
  let quarters := Binary64.scale value.1 value.2 (2 - x.exponent)
  let low := (bounds x).1 * quarters.2
  let high := (bounds x).2 * quarters.2
  if x.significand % 2 = 0 then low ≤ quarters.1 && quarters.1 ≤ high
  else low < quarters.1 && quarters.1 < high

/-- The decimal of the grid `10 ^ power` that reads back as the number and is nearest to it. -/
def onGrid? (x : Binary64) (power : Int) : Option Decimal :=
  let value := x.fraction
  let scaled := scale value.1 value.2 (-power)
  let nearest := Binary64.roundDiv scaled.1 scaled.2
  let below := scaled.1 / scaled.2
  let other := if nearest = below then below + 1 else below
  [nearest, other].map (⟨·, power⟩) |>.find? (readsBack x)

/-- The shortest decimal with at least `count` digits, of at most `count + fuel`. -/
def shortestFrom (x : Binary64) (leading : Int) : (fuel count : Nat) → Decimal
  | 0, count => (onGrid? x (leading + 1 - count)).getD ⟨0, 0⟩
  | fuel + 1, count =>
    match onGrid? x (leading + 1 - count) with
    | some decimal => decimal
    | none => shortestFrom x leading fuel (count + 1)

/-- The shortest decimal that reads back as a positive number; seventeen digits always do. -/
def shortest (x : Binary64) : Decimal :=
  shortestFrom x (leadingPower x.fraction.1 x.fraction.2) 16 1

def signed (n : Int) : Text :=
  if n < 0 then '-' :: Text.numeral n.natAbs else Text.numeral n.natAbs

/-- The mark of a power of ten, which shows the sign also above zero. -/
def powerMark (n : Int) : Text := 'e' :: (if n < 0 then signed n else '+' :: signed n)

/-- The decimal as text: positional if its leading digit stands within five places after the point
or sixteen before it, else in scientific notation with one digit before the point. -/
def render (decimal : Decimal) : Text :=
  let padded := Text.numeral decimal.digits
  let digits := (padded.reverse.dropWhile (· = '0')).reverse
  let power := decimal.power + (padded.length - digits.length : Nat)
  let point := digits.length + power
  if 0 ≤ power && point ≤ 16 then digits ++ List.replicate power.toNat '0' ++ ".0".toList
  else if 0 < point && point ≤ 16 then digits.take point.toNat ++ '.' :: digits.drop point.toNat
  else if -5 < point && point ≤ 0 then
    "0.".toList ++ List.replicate (-point).toNat '0' ++ digits
  else
    let tail := if digits.length ≤ 1 then [] else '.' :: digits.drop 1
    digits.take 1 ++ tail ++ powerMark (point - 1)

end Decimal

/-- The shortest text of a number with its sign; zero keeps its sign too. -/
def Binary64.render (negative : Bool) (x : Binary64) : Text :=
  let text := if x.significand = 0 then "0.0".toList else (Decimal.shortest x).render
  if negative then '-' :: text else text

end SceneDowngrade
