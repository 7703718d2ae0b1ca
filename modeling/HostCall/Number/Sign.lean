/-!
# Signed integers in text

A sign is one character before the digits and may be left out. An integer of 64 bits has to fit
the range from `-2 ^ 63` to `2 ^ 63 - 1`.
-/

namespace HostCall.Sign

/-- Splits a sign off; the first part tells whether it is negative. -/
def split : List Char → Bool × List Char
  | '-' :: rest => (true, rest)
  | '+' :: rest => (false, rest)
  | cs => (false, cs)

def apply (negative : Bool) (n : Nat) : Int := if negative then -n else n

/-- An integer of 64 bits, if a number is one. -/
def long? (n : Int) : Option Int64 :=
  if Int64.minValue.toInt ≤ n ∧ n ≤ Int64.maxValue.toInt then some (Int64.ofInt n) else none

end HostCall.Sign
