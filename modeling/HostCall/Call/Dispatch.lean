import HostCall.Call.Arguments
import HostCall.Call.Selection
import HostCall.Component.Options

/-!
# Dispatch

A call without arguments reads the field of its name, if that is allowed and there is one. Any
other call evaluates its arguments, selects a method and runs it on the instance.
-/

namespace HostCall

variable {σ : Type}

/-- What a call depends on besides the binding. -/
structure CallContext where
  hierarchy : Hierarchy
  evaluator : Evaluator
  options : Options

namespace Binding

/-- The field that a call reads, if it reads one. -/
def fieldFor? (b : Binding σ) (options : Options) (call : NodeView) : Option (Field σ) :=
  if options.fieldAccess && call.isEmpty then b.fields.get? call.name else none

/-- Reads a field; the instance stays as it is. -/
def readField (b : Binding σ) (f : Field σ) : Traced (Except CallError Value) := do
  .log .trace (b.owner.name ++ ": field access " ++ f.name)
  let result ← b.owner.readField f b.receiver
  return result.mapError (.invocation (b.owner.name ++ "." ++ f.name))

def callMethod (b : Binding σ) (m : Method σ) (fit : Fit) (args : Arguments) :
    Traced (Except CallError Value × Binding σ) := do
  let (result, receiver) ← b.owner.call m b.receiver args.values
  let b := { b with receiver }
  match result with
  | .ok v =>
    .log .debug ("invoked: " ++ CallType.signature b.owner.name m.name args.types ++ " as " ++
      m.signature ++ " (" ++ fit.tag ++ ")")
    return (.ok v, b)
  | .error e =>
    return (.error (.invocation (CallType.signature b.owner.name m.name m.params) e), b)

/-- Evaluates the arguments of a call and runs the method that they select. -/
def dispatchMethod (b : Binding σ) (ctx : CallContext) (call : NodeView) :
    Traced (Except CallError Value × Binding σ) := do
  match ← Arguments.ofCall call ctx.evaluator ctx.options.maxArgs with
  | .error e => return (.error e, b)
  | .ok args =>
    match Method.select ctx.hierarchy b.methods call.name args.types with
    | none => return (.error (.noSuchMethod call.name args.types b.owner.name), b)
    | some (m, fit) => b.callMethod m fit args

/-- Answers a call; the binding afterwards differs at most in the state of its instance. -/
def dispatch (b : Binding σ) (ctx : CallContext) (call : NodeView) :
    Traced (Except CallError Value × Binding σ) :=
  match b.fieldFor? ctx.options call with
  | some f => do
    let result ← b.readField f
    return (result, b)
  | none => b.dispatchMethod ctx call

end Binding

end HostCall
