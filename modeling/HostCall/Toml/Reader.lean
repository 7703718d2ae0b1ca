/-!
# Readers

A reader takes a prefix off a text and answers what it found and what is left, or nothing if the
text does not begin as it must.
-/

namespace HostCall.Toml

/-- Takes a prefix off a text. -/
abbrev Reader (α : Type) := List Char → Option (α × List Char)

namespace Reader

def expect (c : Char) : List Char → Option (List Char)
  | [] => none
  | d :: rest => if d = c then some rest else none

def word : List Char → List Char → Option (List Char)
  | [], cs => some cs
  | c :: word, cs => (expect c cs).bind (Reader.word word)

/-- Reads as many things as follow each other with a separator between them, perhaps none. A
separator with nothing behind it is left. -/
def separated {α : Type} (separator : Char) (item : Reader α) (cs : List Char) :
    List α × List Char :=
  match item cs with
  | none => ([], cs)
  | some (a, rest) =>
    match expect separator rest with
    | none => ([a], rest)
    | some next =>
      if next.length < cs.length then
        match separated separator item next with
        | ([], _) => ([a], rest)
        | (b :: more, left) => (a :: b :: more, left)
      else ([a], rest)
termination_by cs.length

/-- Reads as many things as follow each other, perhaps none; each must take something off. -/
def many {α : Type} (item : Reader α) (cs : List Char) : List α × List Char :=
  match item cs with
  | none => ([], cs)
  | some (a, rest) =>
    if rest.length < cs.length then
      let (more, left) := many item rest
      (a :: more, left)
    else ([], cs)
termination_by cs.length

end Reader

def isGap (c : Char) : Bool := c = ' ' || c = '\t'

def skipGap (cs : List Char) : List Char := cs.dropWhile isGap

/-- Takes a line end off: a line feed, perhaps after a carriage return. -/
def newline? : List Char → Option (List Char)
  | '\n' :: rest => some rest
  | '\r' :: '\n' :: rest => some rest
  | _ => none

/-- What may stand in a comment or a quoted text: a tab, and all but the control characters of
ASCII. -/
def isContent (c : Char) : Bool := c = '\t' || (0x20 ≤ c.toNat && c.toNat ≠ 0x7F)

/-- Drops a comment at the front, up to the end of its line. -/
def skipComment : List Char → List Char
  | '#' :: rest => rest.dropWhile isContent
  | cs => cs

/-- Takes off what may stand behind a finished line: blanks, a comment, and the line end, which
the last line may lack. -/
def lineEnd? (cs : List Char) : Option (List Char) :=
  match skipComment (skipGap cs) with
  | [] => some []
  | rest => newline? rest

/-- Drops blanks, line ends and comments at the front; a comment counts only with its line end. -/
def skipLines (cs : List Char) : List Char :=
  let rest := skipComment (skipGap cs)
  match newline? rest with
  | some next => if next.length < cs.length then skipLines next else skipGap cs
  | none => skipGap cs
termination_by cs.length

end HostCall.Toml
