import HostCall.Number.Binary64

/-!
# The nearest floating point number

A decimal `digits * 10 ^ exponent` is read as the floating point number nearest to it; of two
equally near ones the one with an even significand is taken, and a number at or past half a step
above the largest finite one becomes infinite. All arithmetic is exact.
-/

namespace HostCall.Binary64

/-- The quotient rounded to the nearest integer, a half to the even neighbour. -/
def divideToEven (num den : Nat) : Nat :=
  let q := num / den
  let twice := 2 * (num % den)
  if twice < den then q
  else if den < twice then q + 1
  else q + q % 2

/-- The lowest place of a significand is that of `2 ^ -1074`. -/
def lowestPlace : Nat := 1074

/-- The place of the leading significand: the least one at which `num / den`, in units of
`2 ^ -1074`, stays below `2 ^ 53`. -/
def placeOf (num den : Nat) : Nat :=
  let units := num * Nat.pow 2 lowestPlace / den
  units.log2 - 52

/-- The magnitude pattern nearest to the quotient of two positive numbers. The pattern of a rounded
significand of `2 ^ 53` is already that of the next place. -/
def nearestMagnitude (num den : Nat) : Nat :=
  let place := placeOf num den
  let significand := divideToEven (num * Nat.pow 2 lowestPlace) (den * Nat.pow 2 place)
  min (place * leadingBit + significand) infinityMagnitude

/-- Above this decimal order of magnitude every number is infinite. -/
def infiniteOrder : Int := 310

/-- Below this decimal order of magnitude every number is zero. -/
def vanishingOrder : Int := -330

/-- How many decimal digits a number has. -/
def decimalLength (n : Nat) : Nat := (Nat.toDigits 10 n).length

/-- The floating point number nearest to `± digits * 10 ^ exponent`. -/
def ofDecimal (negative : Bool) (digits : Nat) (exponent : Int) : Binary64 :=
  let order : Int := exponent + decimalLength digits
  ofMagnitude negative <|
    if digits = 0 || order < vanishingOrder then 0
    else if infiniteOrder < order then infinityMagnitude
    else nearestMagnitude (digits * Nat.pow 10 exponent.toNat) (Nat.pow 10 (-exponent).toNat)

end HostCall.Binary64
