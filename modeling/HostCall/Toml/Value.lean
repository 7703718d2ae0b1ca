import HostCall.Toml.Number
import HostCall.Toml.Table

/-!
# Keys and values in TOML

A key is bare or quoted, and keys joined by points name a path. A value is a scalar, an array,
which may run over lines, or a table in braces, which may not.
-/

namespace HostCall.Toml

/-- Whether a character may stand in a key without quotes. -/
def isBare (c : Char) : Bool := c.isAlphanum || c = '_' || c = '-'

/-- One key of a path, with the blanks around it. -/
def keyPart? (cs : List Char) : Option (String × List Char) :=
  let cs := skipGap cs
  match line? cs with
  | some (text, rest) => some (String.ofList text, skipGap rest)
  | none =>
    let bare := cs.takeWhile isBare
    if bare = [] then none
    else some (String.ofList bare, skipGap (cs.dropWhile isBare))

/-- A path has fewer keys than this. -/
def maxPath : Nat := 80

/-- A path of keys: those on the way and the last one. -/
def path? (cs : List Char) : Option ((List String × String) × List Char) :=
  let (keys, rest) := Reader.separated '.' keyPart? cs
  if keys.length < maxPath then keys.getLast?.map fun last => ((keys.dropLast, last), rest)
  else none

def scalarValue? : Reader Item
  | [] => none
  | c :: rest =>
    if c = '"' ∨ c = '\'' then
      (text? (c :: rest)).map fun (text, left) => (.text (String.ofList text), left)
    else if c = 't' then (Reader.word ['r', 'u', 'e'] rest).map (.boolean true, ·)
    else if c = 'f' then (Reader.word ['a', 'l', 's', 'e'] rest).map (.boolean false, ·)
    else
      match moment? (c :: rest) with
      | some left => some (.moment, left)
      | none => number? (c :: rest)

/-- The elements of an array and its closing bracket; a last comma may stand behind an element. -/
def array? (element : Reader Item) (cs : List Char) : Option (Item × List Char) :=
  let inLines := fun cs => (element (skipLines cs)).map fun (item, rest) => (item, skipLines rest)
  let (items, rest) := Reader.separated ',' inLines cs
  let rest := if items.isEmpty then rest else (Reader.expect ',' rest).getD rest
  (Reader.expect ']' (skipLines rest)).map (.array items, ·)

def pair? (value : Reader Item) (cs : List Char) :
    Option ((List String × String × Item) × List Char) := do
  let ((path, key), rest) ← path? cs
  let (item, rest) ← value (skipGap (← Reader.expect '=' rest))
  return ((path, key, item), rest)

/-- The pairs of a table in braces and its closing brace. -/
def inlineTable? (value : Reader Item) (cs : List Char) : Option (Item × List Char) := do
  let inGaps := fun cs => (pair? value cs).map fun (pair, rest) => (pair, skipGap rest)
  let (pairs, rest) := Reader.separated ',' inGaps cs
  let rest ← Reader.expect '\x7d' (skipGap rest)
  let entries ← pairs.foldlM
    (fun entries (path, key, item) => Entries.define? path key item .inline entries) []
  return (.table .inline entries, rest)

/-- A value with at most so many arrays and tables inside each other. -/
def value? : Nat → Reader Item
  | 0, cs => scalarValue? cs
  | depth + 1, cs =>
    match cs with
    | [] => none
    | c :: rest =>
      if c = '[' then array? (value? depth) rest
      else if c = '\x7b' then inlineTable? (value? depth) rest
      else scalarValue? (c :: rest)

/-- How many arrays and tables may stand inside each other. -/
def maxDepth : Nat := 79

end HostCall.Toml
