/-!
# TOML text of scalars

A text is written in the first of these ways that needs no escape but for tabs: between double
quotes, between single quotes, between tripled double quotes, between tripled single quotes. If
each needs one, it is written with escapes between double quotes, tripled ones for several lines.
A text of several lines begins on a line of its own.
-/

namespace HostCall.Toml.Writer

def isControl (c : Char) : Bool := c.toNat < 0x20 || c.toNat = 0x7F

/-- Whether a text holds a control character that no quotes admit. -/
def hasControl (cs : List Char) : Bool :=
  cs.any fun c => isControl c && c != '\t' && c != '\n'

def isMultiline (cs : List Char) : Bool := cs.contains '\n'

/-- Whether three quotes of a kind stand side by side. -/
def hasTriple (quote : Char) : List Char → Bool
  | [] => false
  | c :: cs => (c :: cs).take 3 == [quote, quote, quote] || hasTriple quote cs

inductive Style where
  | basicLine
  | literalLine
  | basicBlock
  | literalBlock
deriving DecidableEq

def style (cs : List Char) : Style :=
  let plain := !hasControl cs
  if plain && !cs.contains '\\' && !cs.contains '"' && !isMultiline cs then .basicLine
  else if plain && !cs.contains '\'' && !isMultiline cs then .literalLine
  else if plain && !cs.contains '\\' && !hasTriple '"' cs then .basicBlock
  else if plain && !hasTriple '\'' cs then .literalBlock
  else if isMultiline cs then .basicBlock
  else .basicLine

/-- Four digits in base sixteen, in capital letters. -/
def hex4 (n : Nat) : List Char :=
  let ds := (Nat.toDigits 16 n).map Char.toUpper
  List.replicate (4 - ds.length) '0' ++ ds

/-- One character other than a quote between double quotes; in a block, line ends stay. -/
def escaped (block : Bool) (c : Char) : List Char :=
  if c = '\x08' then ['\\', 'b']
  else if c = '\t' then ['\\', 't']
  else if c = '\n' then if block then ['\n'] else ['\\', 'n']
  else if c = '\x0C' then ['\\', 'f']
  else if c = '\r' then ['\\', 'r']
  else if c = '\\' then ['\\', '\\']
  else if isControl c then '\\' :: 'u' :: hex4 c.toNat
  else [c]

/-- How many quotes side by side need no escape. -/
def freeQuotes (block : Bool) : Nat := if block then 2 else 0

/-- A text between double quotes, of which some quotes may stand right before it. -/
def escapeAll (block : Bool) (quotes : Nat) : List Char → List Char
  | [] => []
  | c :: cs =>
    if c = '"' then
      if quotes < freeQuotes block then '"' :: escapeAll block (quotes + 1) cs
      else '\\' :: '"' :: escapeAll block 0 cs
    else escaped block c ++ escapeAll block 0 cs

/-- A text between tripled quotes; one of several lines begins on a line of its own. -/
def block (quote : Char) (multiline : Bool) (body : List Char) : List Char :=
  [quote, quote, quote] ++ (if multiline then ['\n'] else []) ++ body ++ [quote, quote, quote]

def quotedAs (cs : List Char) : Style → List Char
  | .basicLine => '"' :: escapeAll false 0 cs ++ ['"']
  | .literalLine => '\'' :: cs ++ ['\'']
  | .basicBlock => block '"' (isMultiline cs) (escapeAll true 0 cs)
  | .literalBlock => block '\'' (isMultiline cs) cs

def text (s : String) : String := String.ofList (quotedAs s.toList (style s.toList))

def boolean (b : Bool) : String := if b then "true" else "false"

/-- The text form of an integer of 64 bits, if a natural number is one. -/
def natural? (n : Nat) : Option String :=
  if (n : Int) ≤ Int64.maxValue.toInt then some (toString n) else none

/-- One line: a bare key and the text of its value. -/
def pair (key value : String) : String := key ++ " = " ++ value ++ "\n"

end HostCall.Toml.Writer
