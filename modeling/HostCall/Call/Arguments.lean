import HostCall.Call.Error

/-!
# Arguments of a call

The children of a call node are evaluated one after the other. A bound on their number counts
what the node claims; the walk takes the children that it meets.
-/

namespace HostCall

structure Arguments where
  values : List Value

namespace Arguments

def types (args : Arguments) : List CallType := args.values.map Value.callType

def size (args : Arguments) : Nat := args.values.length

/-- Each argument behind its type. -/
def pairs (args : Arguments) : List (CallType × Value) := args.types.zip args.values

/-- Equality of types and values; a NaN differs from itself. -/
def same (a b : Arguments) : Bool := a.types == b.types && Value.sameAll a.values b.values

/-- The log records that list the arguments of a call from a position on. -/
def describe (name : String) (index : Nat) : List Value → List Note
  | [] => []
  | v :: vs =>
    .log .trace (name ++ " arg " ++ toString index ++ ": " ++ v.inspect ++ " -> " ++
      v.callType.name) :: describe name (index + 1) vs

/-- Evaluates the children of a call from a position on, up to the first that panics. -/
def evaluate (name : String) (evaluator : Evaluator) (index : Nat) :
    List NodeView → Traced (Except CallError (List Value))
  | [] => return .ok []
  | child :: rest => do
    let response := evaluator child
    .events response.events
    match response.contain with
    | .error e => return .error (.evaluation name index e)
    | .ok v =>
      let more ← evaluate name evaluator (index + 1) rest
      return more.map (v :: ·)

/-- Evaluates the arguments of a call, unless it claims more of them than allowed. -/
def ofCall (call : NodeView) (evaluator : Evaluator) (maxArgs : Option Nat) :
    Traced (Except CallError Arguments) :=
  match maxArgs.filter (· < call.claimed) with
  | some max => return .error (.tooManyArguments call.name call.claimed max)
  | none => do
    match ← evaluate call.name evaluator 0 call.children with
    | .error e => return .error e
    | .ok values =>
      .leave (describe call.name 0 values)
      return .ok ⟨values⟩

end Arguments

end HostCall
