import HostCall.Number.Nearest
import HostCall.Number.Sign
import HostCall.Value.Basic

/-!
# Literals

A literal token is a keyword, a text between equal quotes, an integer, a decimal fraction, or
else a bare text; the first of these that applies decides. Digits are those of ASCII, and a
decimal has at least one, so that words such as `inf` stay text.
-/

namespace HostCall.Literal

/-- The text between two equal quotes; nothing inside is escaped. -/
def unquote? : List Char → Option (List Char)
  | [] => none
  | q :: rest =>
    if (q = '"' ∨ q = '\'') ∧ rest.getLast? = some q then some rest.dropLast else none

/-- A nonempty run of digits that makes up the whole text. -/
def natural? (cs : List Char) : Option Nat :=
  if cs ≠ [] ∧ cs.all Char.isDigit then some (Nat.ofDigitChars 10 cs 0) else none

/-- An optional sign and digits. -/
def integer? (cs : List Char) : Option Int :=
  let (negative, digits) := Sign.split cs
  (natural? digits).map (Sign.apply negative)

def long? (cs : List Char) : Option Int64 := (integer? cs).bind Sign.long?

/-- The exponent part of a decimal; an absent one is zero. -/
def exponent? : List Char → Option Int
  | [] => some 0
  | e :: rest => if e = 'e' ∨ e = 'E' then integer? rest else none

/-- Splits the digits after a point off, if there is a point. -/
def splitFraction : List Char → List Char × List Char
  | '.' :: rest => (rest.takeWhile Char.isDigit, rest.dropWhile Char.isDigit)
  | cs => ([], cs)

/-- An optional sign, digits with an optional point, and an optional exponent. -/
def decimal? (cs : List Char) : Option Binary64 :=
  let (negative, body) := Sign.split cs
  let whole := body.takeWhile Char.isDigit
  let (fraction, rest) := splitFraction (body.dropWhile Char.isDigit)
  if whole ++ fraction = [] then none
  else
    (exponent? rest).map fun exponent =>
      Binary64.ofDecimal negative (Nat.ofDigitChars 10 (whole ++ fraction) 0)
        (exponent - fraction.length)

def ofToken (token : String) : Value :=
  if token = "true" then .bool true
  else if token = "false" then .bool false
  else if token = "null" then .null
  else
    let cs := token.toList
    match unquote? cs with
    | some inner => .text (String.ofList inner)
    | none =>
      match long? cs with
      | some n => .long n
      | none =>
        match decimal? cs with
        | some x => .double x
        | none => .text token

end HostCall.Literal
