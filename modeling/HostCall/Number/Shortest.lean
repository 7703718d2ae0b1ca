import HostCall.Number.Nearest

/-!
# The shortest decimal text

A finite number is written with the fewest decimal digits that read back as it; of the texts with
that many digits the nearest is taken, and of two equally near ones the larger. The text is always
positional: no exponent, and no point in a whole number.
-/

namespace HostCall.Binary64

/-- A quotient of natural numbers, the exact size of a finite number. -/
structure Fraction where
  num : Nat
  den : Nat

/-- A decimal `digits * 10 ^ exponent`. -/
structure Decimal where
  digits : Nat
  exponent : Int

/-- The reals that round to a number, in quarters of its last place: its own size and the two ends
of the interval. The lower end is nearer at the least significand of a place above the lowest. -/
structure Neighbourhood where
  lower : Nat
  middle : Nat
  upper : Nat
  /-- Whether the ends belong to the interval. -/
  closed : Bool
  /-- The size of a quarter of the last place. -/
  quarter : Fraction

/-- A quarter of the last place of a number at the lowest place is `2 ^ -1076`. -/
def quarterPlace : Nat := lowestPlace + 2

/-- The interval of reals that round to a positive finite number. -/
def neighbourhood (x : Binary64) : Neighbourhood :=
  let m := x.significand
  { lower := if m = leadingBit ∧ 0 < x.place then 4 * m - 1 else 4 * m - 2
    middle := 4 * m
    upper := 4 * m + 2
    closed := m % 2 == 0
    quarter := ⟨Nat.pow 2 (x.place - quarterPlace), Nat.pow 2 (quarterPlace - x.place)⟩ }

namespace Neighbourhood

/-- A number of quarters and a multiple of `10 ^ exponent`, brought to one unit. -/
def scaled (b : Neighbourhood) (exponent : Int) (quarters multiple : Nat) : Nat × Nat :=
  (quarters * b.quarter.num * Nat.pow 10 (-exponent).toNat,
    multiple * b.quarter.den * Nat.pow 10 exponent.toNat)

/-- Whether a multiple of `10 ^ exponent` lies in the interval. -/
def contains (b : Neighbourhood) (exponent : Int) (multiple : Nat) : Bool :=
  let (low, x) := b.scaled exponent b.lower multiple
  let (high, _) := b.scaled exponent b.upper multiple
  if b.closed then low ≤ x && x ≤ high else low < x && x < high

/-- The larger multiple of `10 ^ exponent` that does not exceed the middle. -/
def floorMultiple (b : Neighbourhood) (exponent : Int) : Nat :=
  let (middle, unit) := b.scaled exponent b.middle 1
  middle / unit

/-- Whether the multiple after `c` is at least as near to the middle as `c` is. -/
def upperIsNearer (b : Neighbourhood) (exponent : Int) (c : Nat) : Bool :=
  let (middle, both) := b.scaled exponent (2 * b.middle) (c + (c + 1))
  both ≤ middle

/-- The multiple of `10 ^ exponent` in the interval that is nearest to the middle. -/
def pick? (b : Neighbourhood) (exponent : Int) : Option Nat :=
  let c := b.floorMultiple exponent
  match b.contains exponent c, b.contains exponent (c + 1) with
  | true, true => some (if b.upperIsNearer exponent c then c + 1 else c)
  | true, false => some c
  | false, true => some (c + 1)
  | false, false => none

/-- Tries one grid after the other, each ten times as fine as the one before. -/
def refine (b : Neighbourhood) : Nat → Int → Decimal
  | 0, exponent => ⟨b.floorMultiple exponent, exponent⟩
  | fuel + 1, exponent =>
    match b.pick? exponent with
    | some c => ⟨c, exponent⟩
    | none => refine b fuel (exponent - 1)

/-- The order of magnitude of the middle: it has that many digits before the point. -/
def order (b : Neighbourhood) : Int :=
  let num := b.middle * b.quarter.num
  let den := b.quarter.den
  if den ≤ num then decimalLength (num / den)
  else 1 - decimalLength ((den - 1) / num)

end Neighbourhood

/-- Seventeen digits tell any two floating point numbers apart. -/
def maxDigits : Nat := 17

/-- The shortest decimal of a positive finite number. The first grid is that of the power of ten
above the number, which may itself read back as the number. -/
def shortest (x : Binary64) : Decimal :=
  let b := x.neighbourhood
  b.refine (maxDigits + 1) b.order

/-- A decimal without exponent; a point only where there are digits after it. -/
def Decimal.positional (d : Decimal) : String :=
  let digits := Nat.toDigits 10 d.digits
  let places := (-d.exponent).toNat
  if places = 0 then
    String.ofList (digits ++ List.replicate d.exponent.toNat '0')
  else
    let padded := List.replicate (places + 1 - digits.length) '0' ++ digits
    let whole := padded.length - places
    String.ofList (padded.take whole ++ '.' :: padded.drop whole)

def render (x : Binary64) : String :=
  if x.isNaN then "NaN"
  else
    let sign := if x.isNegative then "-" else ""
    if x.isInfinite then sign ++ "inf"
    else if x.magnitude = 0 then sign ++ "0"
    else sign ++ x.shortest.positional

end HostCall.Binary64
