import HostCall.Toml.Value

/-!
# TOML documents

A document is a sequence of lines: blank ones, pairs of a key and a value, and headers, which say
to what table the pairs after them belong.
-/

namespace HostCall.Toml

inductive Line where
  | blank
  | pair (path : List String) (key : String) (item : Item)
  /-- A header in single brackets: the pairs that follow belong to a table of its own. -/
  | header (path : List String) (key : String)
  /-- A header in double brackets: the pairs that follow belong to one more table of a list. -/
  | element (path : List String) (key : String)

/-- The path of a header and its closing brackets. -/
def headerPath? (closing : List Char) (cs : List Char) :
    Option ((List String × String) × List Char) := do
  let (path, rest) ← path? cs
  return (path, ← lineEnd? (← Reader.word closing rest))

/-- One line with its line end. A line that holds more than blanks may be the last one and lack
its line end. -/
def line : Reader Line := fun cs =>
  match skipGap cs with
  | [] => none
  | '[' :: '[' :: rest =>
    (headerPath? [']', ']'] rest).map fun ((path, key), left) => (.element path key, left)
  | '[' :: rest => (headerPath? [']'] rest).map fun ((path, key), left) => (.header path key, left)
  | '#' :: rest => (lineEnd? ('#' :: rest)).map (.blank, ·)
  | rest =>
    match newline? rest with
    | some left => some (.blank, left)
    | none => do
      let ((path, key, item), left) ← pair? (value? maxDepth) rest
      return (.pair path key item, ← lineEnd? left)

/-- A document being read: its root table and the path of the header in force. -/
structure Draft where
  root : Entries := []
  header : List String := []

namespace Draft

/-- Changes the table that the header in force names. -/
def changeCurrent (draft : Draft) (change : Origin → Entries → Option Entries) :
    Option Entries :=
  Entries.changeAt .header change draft.header .header draft.root

def add? (draft : Draft) : Line → Option Draft
  | .blank => some draft
  | .pair path key item =>
    (draft.changeCurrent (Entries.define? path key item)).map ({ draft with root := · })
  | .header path key =>
    (Entries.changeAt .header (fun _ => Entries.openTable? key) path .header draft.root).map
      (⟨·, path ++ [key]⟩)
  | .element path key =>
    (Entries.changeAt .header (fun _ => Entries.openElement? key) path .header draft.root).map
      (⟨·, path ++ [key]⟩)

end Draft

/-- A byte order mark may stand before the first line. -/
def byteOrderMark : Char := '\uFEFF'

def lines? (cs : List Char) : Option (List Line) :=
  let (found, rest) := Reader.many line ((Reader.expect byteOrderMark cs).getD cs)
  if skipGap rest = [] then some found else none

def parse? (text : String) : Option Entries := do
  let draft ← (← lines? text.toList).foldlM Draft.add? {}
  return draft.root

end HostCall.Toml
