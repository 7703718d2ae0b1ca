import HostCall.Number.Nearest
import HostCall.Number.Sign
import HostCall.Toml.Item
import HostCall.Toml.Text

/-!
# Numbers, dates and times in TOML

Digits may be grouped by single underscores. An integer fits 64 bits. A float has a fraction or an
exponent, and one that is too large to be finite is refused unless it is negative. Dates are those
of the Gregorian calendar.
-/

namespace HostCall.Toml

/-- The digits that follow a digit, each perhaps after one underscore. -/
def moreDigits (isDigit : Char → Bool) : List Char → List Char × List Char
  | '_' :: d :: rest =>
    if isDigit d then withChar d (moreDigits isDigit rest) else ([], '_' :: d :: rest)
  | d :: rest =>
    if isDigit d then withChar d (moreDigits isDigit rest) else ([], d :: rest)
  | [] => ([], [])

/-- A run of at least one digit, without its underscores. -/
def digits? (isDigit : Char → Bool) : Reader (List Char)
  | [] => none
  | d :: rest => if isDigit d then some (withChar d (moreDigits isDigit rest)) else none

/-- The whole part of a number in base ten: a lone zero, or digits that do not begin with one. -/
def whole? : Reader (List Char)
  | '0' :: rest => some (['0'], rest)
  | cs => digits? Char.isDigit cs

/-- An integer that fits 64 bits, with its sign. -/
def integer? (negative : Bool) (n : Nat) : Option Item :=
  (Sign.long? (Sign.apply negative n)).map .integer

/-- The exponent of a float, what follows its letter. -/
def exponent? (cs : List Char) : Option (Int × List Char) :=
  let (negative, body) := Sign.split cs
  (digits? Char.isDigit body).map fun (ds, rest) =>
    (Sign.apply negative (Nat.ofDigitChars 10 ds 0), rest)

/-- A float from its parts, unless it is above all finite ones. -/
def float? (negative : Bool) (whole fraction : List Char) (exponent : Int) : Option Item :=
  let x := Binary64.ofDecimal negative (Nat.ofDigitChars 10 (whole ++ fraction) 0)
    (exponent - fraction.length)
  if x.isInfinite && !x.isNegative then none else some (.float x)

def isExponentMark (c : Char) : Bool := c = 'e' || c = 'E'

/-- What follows the fraction of a float: perhaps an exponent. -/
def afterFraction (negative : Bool) (whole fraction : List Char) (cs : List Char) :
    Option (Item × List Char) :=
  match cs with
  | c :: rest =>
    if isExponentMark c then do
      let (exponent, left) ← exponent? rest
      return (← float? negative whole fraction exponent, left)
    else (float? negative whole fraction 0).map (·, c :: rest)
  | [] => (float? negative whole fraction 0).map (·, [])

/-- What follows the whole part of a number: a fraction, an exponent, or neither. -/
def afterWhole (negative : Bool) (whole : List Char) (cs : List Char) :
    Option (Item × List Char) :=
  match cs with
  | c :: rest =>
    if c = '.' then do
      let (fraction, left) ← digits? Char.isDigit rest
      afterFraction negative whole fraction left
    else if isExponentMark c then afterFraction negative whole [] (c :: rest)
    else (integer? negative (Nat.ofDigitChars 10 whole 0)).map (·, c :: rest)
  | [] => (integer? negative (Nat.ofDigitChars 10 whole 0)).map (·, [])

/-- A number in base ten, infinity or not a number. -/
def decimal? (cs : List Char) : Option (Item × List Char) :=
  let (negative, body) := Sign.split cs
  match Reader.word ['i', 'n', 'f'] body with
  | some rest => some (.float (.ofMagnitude negative Binary64.infinityMagnitude), rest)
  | none =>
    match Reader.word ['n', 'a', 'n'] body with
    | some rest => some (.float (.ofMagnitude negative Binary64.quietMagnitude), rest)
    | none => do
      let (whole, rest) ← whole? body
      afterWhole negative whole rest

/-- The digits of a base after its mark. -/
def based? (base : Nat) (cs : List Char) : Option (Item × List Char) := do
  let (ds, rest) ← digits? (fun c => (hexDigit? c).any (· < base)) cs
  let n := ds.foldl (fun n c => base * n + (hexDigit? c).getD 0) 0
  return (← integer? false n, rest)

def number? : Reader Item
  | '0' :: 'x' :: rest => based? 16 rest
  | '0' :: 'o' :: rest => based? 8 rest
  | '0' :: 'b' :: rest => based? 2 rest
  | cs => decimal? cs

/-- A number of exactly so many digits, between two bounds. -/
def field? (count low high : Nat) (cs : List Char) : Option (Nat × List Char) :=
  let ds := cs.take count
  let n := Nat.ofDigitChars 10 ds 0
  if ds.length = count ∧ ds.all Char.isDigit ∧ low ≤ n ∧ n ≤ high then some (n, cs.drop count)
  else none

def daysInMonth (year month : Nat) : Nat :=
  if month = 2 then
    if year % 4 = 0 ∧ (year % 100 ≠ 0 ∨ year % 400 = 0) then 29 else 28
  else if month = 4 ∨ month = 6 ∨ month = 9 ∨ month = 11 then 30
  else 31

def date? (cs : List Char) : Option (List Char) := do
  let (year, cs) ← field? 4 0 9999 cs
  let (month, cs) ← field? 2 1 12 (← Reader.expect '-' cs)
  let (_, cs) ← field? 2 1 (daysInMonth year month) (← Reader.expect '-' cs)
  return cs

/-- Takes an hour and a minute off. -/
def hourMinute? (cs : List Char) : Option (List Char) := do
  let (_, cs) ← field? 2 0 23 cs
  let (_, cs) ← field? 2 0 59 (← Reader.expect ':' cs)
  return cs

/-- Takes a fraction of a second off, if a point follows. -/
def secondFraction? (cs : List Char) : Option (List Char) :=
  match Reader.expect '.' cs with
  | none => some cs
  | some rest =>
    let left := rest.dropWhile Char.isDigit
    if left.length < rest.length then some left else none

/-- Takes a time off; a leap second counts. -/
def time? (cs : List Char) : Option (List Char) := do
  let (_, cs) ← field? 2 0 60 (← Reader.expect ':' (← hourMinute? cs))
  secondFraction? cs

/-- Takes the distance from universal time off, if one follows. -/
def offset? : List Char → Option (List Char)
  | [] => some []
  | c :: rest =>
    if c = 'Z' ∨ c = 'z' then some rest
    else if c = '+' ∨ c = '-' then hourMinute? rest
    else some (c :: rest)

/-- Whether a character may stand between a date and a time. -/
def isTimeMark (c : Char) : Bool := c = 'T' || c = 't' || c = ' '

/-- Takes a date, a time or both off. A blank after a date belongs to it only if an hour follows. -/
def moment? (cs : List Char) : Option (List Char) :=
  match date? cs with
  | none => time? cs
  | some [] => some []
  | some (c :: rest) =>
    if isTimeMark c ∧ (field? 2 0 23 rest).any (fun hour => hour.2.head? = some ':') then
      (time? rest).bind offset?
    else some (c :: rest)

end HostCall.Toml
