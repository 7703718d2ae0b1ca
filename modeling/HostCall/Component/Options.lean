import HostCall.Text.Blank
import HostCall.Toml.Document
import HostCall.Toml.Writer

/-!
# Component options

Options say how a component answers calls and how it is closed. They can be kept as a TOML
document: the document may leave any of them out and hold other keys, and it is written in a fixed
order.
-/

namespace HostCall

structure Options where
  /-- How many arguments a call may have; none means any number. -/
  maxArgs : Option Nat := none
  /-- The method that a component calls when it is closed. -/
  closeMethod : String := "close"
  /-- Whether a component that is dropped closes first. -/
  closeOnDrop : Bool := true
  /-- Whether a call without arguments reads a field of its name before methods are tried. -/
  fieldAccess : Bool := true
deriving DecidableEq, Inhabited

/-- Why options cannot be read, used or written. -/
inductive OptionsError where
  | unreadable
  | unwritable
  | invalid (reason : String)
deriving DecidableEq

namespace OptionsError

/-- The wording of an error; what is wrong with a document is not told apart. -/
def message : OptionsError → String
  | unreadable => "Failed to parse options"
  | unwritable => "Failed to serialize options"
  | invalid reason => "Invalid options: " ++ reason

end OptionsError

namespace Options

/-- Options are valid when the close method has a name that is not blank. -/
def isValid (o : Options) : Bool := !Text.isBlank o.closeMethod

def validate (o : Options) : Except OptionsError Unit :=
  if o.isValid then .ok () else .error (.invalid "close_method must not be empty")

/-- The content of a key, or a default if the key is absent; a content of the wrong kind is
refused. -/
def entryOr {α : Type} (entries : Toml.Entries) (key : String) (default : α)
    (content? : Toml.Item → Option α) : Option α :=
  match entries.lookup key with
  | none => some default
  | some item => content? item

def natural? : Toml.Item → Option Nat
  | .integer n => if 0 ≤ n.toInt then some n.toInt.toNat else none
  | _ => none

def text? : Toml.Item → Option String
  | .text s => some s
  | _ => none

def boolean? : Toml.Item → Option Bool
  | .boolean b => some b
  | _ => none

/-- The options that a table holds; other keys are passed over. -/
def ofEntries? (entries : Toml.Entries) : Option Options := do
  let base : Options := {}
  return {
    maxArgs := ← entryOr entries "max_args" base.maxArgs (fun i => (natural? i).map some)
    closeMethod := ← entryOr entries "close_method" base.closeMethod text?
    closeOnDrop := ← entryOr entries "close_on_drop" base.closeOnDrop boolean?
    fieldAccess := ← entryOr entries "field_access" base.fieldAccess boolean? }

/-- Reads options from a TOML document and validates them. -/
def ofToml (text : String) : Except OptionsError Options := do
  match (Toml.parse? text).bind ofEntries? with
  | none => throw .unreadable
  | some options =>
    options.validate
    return options

/-- The lines for the argument bound: one, or none where there is no bound. -/
def maxArgsLines? : Option Nat → Option String
  | none => some ""
  | some n => (Toml.Writer.natural? n).map (Toml.Writer.pair "max_args")

/-- Writes options as a TOML document. The argument bound has to fit an integer of 64 bits. -/
def toToml (o : Options) : Except OptionsError String :=
  match maxArgsLines? o.maxArgs with
  | none => .error .unwritable
  | some first =>
    .ok (first ++ Toml.Writer.pair "close_method" (Toml.Writer.text o.closeMethod) ++
      Toml.Writer.pair "close_on_drop" (Toml.Writer.boolean o.closeOnDrop) ++
      Toml.Writer.pair "field_access" (Toml.Writer.boolean o.fieldAccess))

end Options

end HostCall
