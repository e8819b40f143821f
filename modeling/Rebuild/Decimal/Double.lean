import Rebuild.Decimal

/-!
# Doubles

A finite double is a whole number of units, and the unit is `2 ^ -1074`. Its significand has at most
53 bits, so the numbers of units that occur are those with a significand and a power of two. All
work on doubles is done in whole numbers, so no rounding happens but the one that is meant.
-/

namespace Rebuild

/-- The size of a double: `significand * 2 ^ exponent` units. -/
structure Double where
  significand : Nat
  exponent : Nat
deriving DecidableEq

namespace Double

/-- How many units make one. -/
def unitsPerOne : Nat := 1 <<< 1074

/-- A quotient rounded to the nearest whole number, and to the even one from halfway. -/
def roundDiv (n d : Nat) : Nat :=
  let below := n / d
  let twice := 2 * (n % d)
  if twice < d then below else if d < twice then below + 1 else below + below % 2

/-- The double nearest to a quotient, before it is known whether it is finite. -/
def nearest (n d : Nat) : Double :=
  let exponent := (n * unitsPerOne / d).log2 - 52
  let significand := roundDiv (n * unitsPerOne) (d <<< exponent)
  if significand = 1 <<< 53 then ⟨1 <<< 52, exponent + 1⟩ else ⟨significand, exponent⟩

/-- Whether a double is finite. -/
def isFinite (x : Double) : Bool := x.exponent ≤ 2045

/-- The finite double nearest to a decimal, apart from the sign. Far outside the range of the
doubles the number is not worked out. -/
def ofDecimal? (x : Decimal) : Option Double :=
  let size := (Decimal.digitCount x.coefficient : Int) + x.exponent
  if x.coefficient = 0 || size < -400 then some ⟨0, 0⟩
  else if size > 400 then none
  else
    let double := nearest (x.coefficient * Decimal.tens x.exponent) (Decimal.tens (-x.exponent))
    if double.isFinite then some double else none

/-- The decimal of so many digits that is read back as a double, if there is one: of the two
decimals next to it the nearer one, and the greater one from halfway. The size is the power of ten
just above the double. A decimal is read back when it is less than half a step away, or exactly half
a step from an even significand; below a power of two the steps are half as wide. -/
def withDigits? (x : Double) (size : Int) (digits : Nat) : Option (Nat × Int) :=
  let exponent := size - digits
  let scale := Decimal.tens (-exponent) <<< x.exponent
  let grid := 4 * unitsPerOne * Decimal.tens exponent
  let value := 4 * x.significand * scale
  let down := (if x.significand = 1 <<< 52 then 1 else 2) * scale
  let up := 2 * scale
  let even := x.significand % 2 == 0
  let below := value / grid
  let toBelow := value - below * grid
  let toAbove := (below + 1) * grid - value
  let belowFits := toBelow < down || (even && toBelow == down)
  let aboveFits := toAbove < up || (even && toAbove == up)
  if aboveFits && (!belowFits || toAbove ≤ toBelow) then some (below + 1, exponent)
  else if belowFits then some (below, exponent)
  else none

/-- The power of ten just above a double that is not zero. -/
def sizeInTens (x : Double) : Int :=
  let units := x.significand <<< x.exponent
  let guess : Int := Decimal.digitCount units - Decimal.digitCount unitsPerOne
  if units * Decimal.tens (-guess) < unitsPerOne * Decimal.tens guess then guess else guess + 1

/-- The text of a double: the fewest digits that are read back as it. Seventeen always are. -/
def text (x : Double) : String :=
  if x.significand = 0 then "0.0"
  else
    let size := x.sizeInTens
    match (List.range 17).findSome? fun n => x.withDigits? size (n + 1) with
    | some (coefficient, exponent) => Decimal.positional coefficient exponent
    | none => Decimal.positional x.significand 0

end Double

end Rebuild
