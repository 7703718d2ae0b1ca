/-!
# Binary floating point numbers of 64 bits

A number is its bit pattern: one sign bit, eleven exponent bits and fifty-two fraction bits. A
finite pattern stands for `± significand * 2 ^ (place - 1074)`, with the significand below `2 ^ 53`.
-/

namespace HostCall

/-- A floating point number of 64 bits, by its bit pattern. -/
structure Binary64 where
  bits : UInt64
deriving DecidableEq, Inhabited

namespace Binary64

/-- The pattern in which only the sign bit is set. -/
def signBit : Nat := 0x8000000000000000

/-- The least significand of a place above the lowest one. -/
def leadingBit : Nat := 0x10000000000000

/-- The magnitude of infinity, above every finite one. -/
def infinityMagnitude : Nat := 0x7FF0000000000000

def quietMagnitude : Nat := 0x7FF8000000000000

def magnitude (x : Binary64) : Nat := x.bits.toNat % signBit

/-- Whether the sign bit is set; a zero may be negative. -/
def isNegative (x : Binary64) : Bool := signBit ≤ x.bits.toNat

def isNaN (x : Binary64) : Bool := infinityMagnitude < x.magnitude

def isInfinite (x : Binary64) : Bool := x.magnitude == infinityMagnitude

/-- How far the significand of a finite number is moved up from the lowest place, `2 ^ -1074`. -/
def place (x : Binary64) : Nat := x.magnitude / leadingBit - 1

/-- The significand of a finite number; below the leading bit only at the lowest place. -/
def significand (x : Binary64) : Nat := x.magnitude - x.place * leadingBit

/-- A number from its sign and its magnitude pattern. -/
def ofMagnitude (negative : Bool) (magnitude : Nat) : Binary64 :=
  ⟨UInt64.ofNat (if negative then signBit + magnitude else magnitude)⟩

/-- Comparison of numbers: NaN equals nothing, and the two zeros are equal. -/
def same (x y : Binary64) : Bool :=
  !x.isNaN && !y.isNaN && (x.bits == y.bits || (x.magnitude == 0 && y.magnitude == 0))

end Binary64

end HostCall
