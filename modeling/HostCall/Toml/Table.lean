import HostCall.Toml.Item

/-!
# Tables that grow line by line

Keys and headers name a table by a path and create the tables on the way. A table that is written
out, by a header of its own or in braces, takes no keys from elsewhere; a key that has a content
keeps it. The last element of a repeated header stands for all of them on a path.
-/

namespace HostCall.Toml

/-- What names a table by a path. -/
inductive Way where
  | header
  | dottedKey
deriving DecidableEq

namespace Way

/-- The origin of the tables that a path creates on its way. -/
def origin : Way → Origin
  | header => .implied
  | dottedKey => .dotted

/-- Whether a path may pass through a table: none leads into braces, and a dotted key leads only
into tables that have no header of their own. -/
def admits : Way → Origin → Bool
  | _, .inline => false
  | header, _ => true
  | dottedKey, .header => false
  | dottedKey, _ => true

end Way

namespace Entries

/-- Changes the table at the end of a path, in a table of some origin. -/
def changeAt (way : Way) (change : Origin → Entries → Option Entries) :
    List String → Origin → Entries → Option Entries
  | [], origin, entries => change origin entries
  | key :: path, _, entries =>
    match entries.lookup key with
    | none =>
      (changeAt way change path way.origin []).map fun sub =>
        entries.put key (.table way.origin sub)
    | some (.table origin sub) =>
      if way.admits origin then
        (changeAt way change path origin sub).map fun sub => entries.put key (.table origin sub)
      else none
    | some (.tables elements) =>
      (elements.getLast?.bind (changeAt way change path .header)).map fun last =>
        entries.put key (.tables (elements.dropLast ++ [last]))
    | some _ => none

/-- Gives a key its content. A table takes plain keys unless dotted keys made it, and dotted keys
only if they did. -/
def define? (path : List String) (key : String) (item : Item) :
    Origin → Entries → Option Entries :=
  changeAt .dottedKey
    (fun origin entries =>
      if (origin == .dotted) == path.isEmpty then none else entries.add? key item) path

/-- Opens the table of a header: a new one, or one that longer headers passed through. -/
def openTable? (key : String) (entries : Entries) : Option Entries :=
  match entries.lookup key with
  | none => some (entries.put key (.table .header []))
  | some (.table .implied sub) => some (entries.put key (.table .header sub))
  | some _ => none

/-- Opens one more table of a repeated header. -/
def openElement? (key : String) (entries : Entries) : Option Entries :=
  match entries.lookup key with
  | none => some (entries.put key (.tables [[]]))
  | some (.tables elements) => some (entries.put key (.tables (elements ++ [[]])))
  | some _ => none

end Entries

end HostCall.Toml
