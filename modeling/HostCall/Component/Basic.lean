import HostCall.Call.Dispatch
import HostCall.Graph.Outline

/-!
# Components

A component answers calls with one host object. Whether it is bound is settled when it is built;
a component that is not bound refuses every call with the same cause.
-/

namespace HostCall

variable {σ : Type}

/-- Whether a component has an instance, and if not, why. -/
inductive Standing (σ : Type) where
  | bound (b : Binding σ)
  | unbound (cause : BindError)

/-- A host object that answers calls. -/
structure Component (σ : Type) where
  typeName : String
  standing : Standing σ
  registry : Registry σ
  evaluator : Evaluator
  options : Options
  sink : Sink
  closed : Bool

namespace Component

def binding? (c : Component σ) : Option (Binding σ) :=
  match c.standing with
  | .bound b => some b
  | .unbound _ => none

def isBound (c : Component σ) : Bool := c.binding?.isSome

def cause? (c : Component σ) : Option BindError :=
  match c.standing with
  | .bound _ => none
  | .unbound cause => some cause

/-- The names of the fields, in ascending order. -/
def fieldNames (c : Component σ) : List String :=
  match c.binding? with
  | some b => b.fields.names
  | none => []

/-- The signatures of the methods, in the order of the table. -/
def signatures (c : Component σ) : List String :=
  match c.binding? with
  | some b => b.methods.map Method.signature
  | none => []

/-- Whether a component is bound, as a word. -/
def standingName (c : Component σ) : String := if c.isBound then "Bound" else "Unbound"

def inspect (c : Component σ) : String :=
  "LocalFunction \x7b type_name: " ++ Text.quoted c.typeName ++ ", state: " ++ c.standingName ++
    ", closed: " ++ (if c.closed then "true" else "false") ++ " \x7d"

/-- What the calls of a component depend on. -/
def context (c : Component σ) : CallContext :=
  { hierarchy := c.registry.hierarchy, evaluator := c.evaluator, options := c.options }

/-- Answers a call without a report. -/
def answer (c : Component σ) (call : NodeView) :
    Traced (Except CallError Value × Component σ) :=
  match c.standing with
  | .unbound cause => return (.error (.unusable c.typeName cause), c)
  | .bound b => do
    .log .debug ("input\n" ++ call.copy.outline)
    let (result, b) ← b.dispatch c.context call
    return (result, { c with standing := .bound b })

def invoke (c : Component σ) (call : NodeView) :
    Traced (Except CallError Value × Component σ) := do
  let (result, c) ← c.answer call
  match result with
  | .ok v => return (.ok v, c)
  | .error e =>
    c.sink.report e.diagnostic
    return (.error e, c)

/-- Answers a call; the answer of one that fails is its message. -/
def exec (c : Component σ) (call : NodeView) : Traced (Value × Component σ) := do
  let (result, c) ← c.invoke call
  match result with
  | .ok v => return (v, c)
  | .error e => return (.text e.message, c)

end Component

end HostCall
