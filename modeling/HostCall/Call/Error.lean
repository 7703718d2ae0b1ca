import HostCall.Binding.Basic

/-!
# Failed calls

A call fails in one of five ways, each with a kind for diagnostics.
-/

namespace HostCall

inductive CallError where
  | unusable (typeName : String) (cause : BindError)
  /-- No member matches the name and the types of the arguments. -/
  | noSuchMethod (name : String) (argTypes : List CallType) (className : String)
  | invocation (signature : String) (cause : HostError)
  /-- An argument node could not be evaluated. -/
  | evaluation (name : String) (index : Nat) (cause : HostError)
  | tooManyArguments (name : String) (given max : Nat)
deriving DecidableEq

namespace CallError

def message : CallError → String
  | unusable typeName cause =>
    "cannot execute " ++ typeName ++ ": no instance could be created (" ++ cause.message ++ ")"
  | noSuchMethod name argTypes className =>
    "No method " ++ CallType.memberSignature name argTypes ++ " found in class " ++ className
  | invocation signature cause => signature ++ " failed: " ++ cause.message
  | evaluation name index cause =>
    "argument " ++ toString index ++ " of " ++ name ++ " could not be evaluated: " ++
      cause.message
  | tooManyArguments name given max =>
    "call " ++ name ++ " has " ++ toString given ++ " arguments, at most " ++ toString max ++
      " allowed"

def kind : CallError → FaultKind
  | unusable .. => .unusable
  | noSuchMethod .. => .resolution
  | invocation .. => .invocation
  | evaluation .. => .evaluation
  | tooManyArguments .. => .argumentLimit

/-- The messages of the errors behind an error, the nearest first. What made a component unusable
is part of the message and not told again. -/
def causes : CallError → List String
  | invocation _ cause => cause.message :: cause.causes
  | evaluation _ _ cause => cause.message :: cause.causes
  | _ => []

/-- How much a failure concerns: all but an unusable component concern a single call. -/
def severity (e : CallError) : Severity :=
  if e.kind = .unusable then .error else .warning

def diagnostic (e : CallError) : Diagnostic := ⟨e.severity, e.kind, e.message⟩

end CallError

end HostCall
