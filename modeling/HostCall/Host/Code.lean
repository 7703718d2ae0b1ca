import HostCall.Graph.View
import HostCall.Trace
import HostCall.Value.Literal
import HostCall.Value.Text
import HostCall.Types.CallType

/-!
# Host code

Host code is what a class brings along: it makes instances, reads fields and runs methods. It may
answer, fail or panic, and others may see effects of it. A panic that is caught becomes an error
that carries its message.
-/

namespace HostCall

inductive HostError where
  /-- An argument is no datum of the type that the code asks for. -/
  | argument (index : Nat) (cause : ConversionError)
  | arity (expected got : Nat)
  /-- The instance is not of the native type of the class. -/
  | receiver (expected : String)
  | failed (text : String)
  | panicked (text : String)
deriving DecidableEq

namespace HostError

def message : HostError → String
  | argument index cause => "argument " ++ toString index ++ ": " ++ cause.message
  | arity expected got =>
    "expected " ++ toString expected ++ " arguments, got " ++ toString got
  | receiver expected => "receiver is not a " ++ expected
  | failed text => text
  | panicked text => "panicked: " ++ text

def causes : HostError → List String
  | argument _ cause => [cause.message]
  | _ => []

end HostError

inductive Panic where
  | text (message : String)
  /-- Something that is no text; a label tells one such thing from another. -/
  | other (label : String := "")
deriving DecidableEq

namespace Panic

def message : Panic → String
  | text message => message
  | other _ => "Unknown panic"

/-- The panic of code that cannot set aside the room that it needs. -/
def noRoom : Panic := text "capacity overflow"

def error (p : Panic) : HostError := .panicked p.message

end Panic

/-- An owned copy of a node, or the panic that ends the making of one without room for it. -/
def NodeView.tryCopy (v : NodeView) : Except Panic Graph :=
  if v.fits then .ok v.copy else .error .noRoom

namespace NodeView

theorem tryCopy_of_fits {v : NodeView} (h : v.fits = true) : v.tryCopy = .ok v.copy := if_pos h

theorem tryCopy_of_full {v : NodeView} (h : v.fits = false) : v.tryCopy = .error .noRoom :=
  if_neg (ne_true_of_eq_false h)

end NodeView

inductive Outcome (α : Type) where
  | returned (a : α)
  | failed (e : HostError)
  | panicked (p : Panic)

namespace Outcome

variable {α : Type}

def contain : Outcome α → Except HostError α
  | returned a => .ok a
  | failed e => .error e
  | panicked p => .error p.error

/-- The outcome of code that only passes a result on. -/
def ofExcept : Except HostError α → Outcome α
  | .ok a => returned a
  | .error e => failed e

end Outcome

/-- A run of host code: how it ended and what others saw of it. -/
structure HostRun (α : Type) where
  outcome : Outcome α
  events : List String := []

/-- A run of code that has no errors of its own: it answers or panics. -/
structure Response where
  answer : Except Panic Value
  events : List String := []

namespace Response

def contain (r : Response) : Except HostError Value := r.answer.mapError Panic.error

end Response

/-- Reduces an argument node to a value. -/
abbrev Evaluator := NodeView → Response

namespace Evaluator

/-- A node read as a literal: an empty one as a token. Any other stays unreduced and is copied. -/
def read (v : NodeView) : Except Panic Value :=
  if v.isEmpty then .ok (Literal.ofToken v.name) else v.tryCopy.map .node

/-- Reads a node without children as a literal and leaves every other one unreduced. -/
def literal : Evaluator := fun v => { answer := read v }

end Evaluator

abbrev ArgumentList := List Value

namespace ArgumentList

/-- A position in an argument list, counted from zero: a word of 64 bits. Host code may ask for any
of them. -/
abbrev Position := UInt64

/-- The argument at a position; one that is missing tells how many it takes to have it. That count
is a word as the position is, so past the last word it is zero. -/
def value (args : ArgumentList) (i : Position) : Except HostError Value :=
  match args[i.toNat]? with
  | some v => .ok v
  | none => .error (.arity (i + 1).toNat args.length)

def get (args : ArgumentList) (type : HostType) (i : Position) :
    Except HostError type.Carrier :=
  match value args i with
  | .error e => .error e
  | .ok v => (type.ofValue v).mapError (.argument i.toNat)

end ArgumentList

end HostCall
