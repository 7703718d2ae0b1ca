import HostCall.Number.Binary64

/-!
# TOML items

The content of a TOML document. A table remembers how it came to be, since that decides whether
later lines may add to it.
-/

namespace HostCall.Toml

/-- How a table came to be. -/
inductive Origin where
  /-- It is the root, or has a header of its own. -/
  | header
  /-- A longer header passes through it. -/
  | implied
  /-- A dotted key passes through it. -/
  | dotted
  /-- It is written in braces. -/
  | inline
deriving DecidableEq

inductive Item where
  | text (s : String)
  | integer (n : Int64)
  | float (x : Binary64)
  | boolean (b : Bool)
  /-- A date, a time or both; which one is not kept. -/
  | moment
  | array (items : List Item)
  | table (origin : Origin) (entries : List (String × Item))
  /-- The tables that stand under one repeated header in double brackets, in order. -/
  | tables (elements : List (List (String × Item)))

/-- The entries of a table, in the order of their first mention. -/
abbrev Entries := List (String × Item)

namespace Entries

/-- Gives a key a new content, in its place if it has one. -/
def put (entries : Entries) (key : String) (item : Item) : Entries :=
  if (entries.lookup key).isSome then
    entries.map fun e => if e.1 == key then (key, item) else e
  else entries ++ [(key, item)]

/-- Gives a key its first content. -/
def add? (entries : Entries) (key : String) (item : Item) : Option Entries :=
  match entries.lookup key with
  | none => some (entries ++ [(key, item)])
  | some _ => none

end Entries

end HostCall.Toml
