/-!
# Diagnostics

Every failure of a component is reported to a sink. A sink keeps what it is told, writes it to
the log, or drops it.
-/

namespace HostCall

inductive Severity where
  /-- The component cannot do its job. -/
  | error
  /-- A single call failed. -/
  | warning
deriving DecidableEq

/-- What kind of failure a diagnostic is about. -/
inductive FaultKind where
  /-- A component could not be bound when it was built. -/
  | construction
  /-- A call met a component that is not bound. -/
  | unusable
  | resolution
  | invocation
  | argumentLimit
  | evaluation
deriving DecidableEq

namespace FaultKind

def tag : FaultKind → String
  | construction => "Construction"
  | unusable => "Unusable"
  | resolution => "Resolution"
  | invocation => "Invocation"
  | argumentLimit => "ArgumentLimit"
  | evaluation => "Evaluation"

end FaultKind

structure Diagnostic where
  severity : Severity
  kind : FaultKind
  message : String
deriving DecidableEq

inductive Sink where
  /-- A ledger that keeps them, by name. -/
  | ledger (name : String)
  | log
  | discard
deriving DecidableEq, Inhabited

/-- The diagnostics that a sink has kept, in the order of their reports. -/
structure Ledger where
  entries : List Diagnostic := []

namespace Ledger

def report (l : Ledger) (d : Diagnostic) : Ledger := ⟨l.entries ++ [d]⟩

/-- Hands everything over and starts anew. -/
def take (l : Ledger) : List Diagnostic × Ledger := (l.entries, {})

def size (l : Ledger) : Nat := l.entries.length

end Ledger

end HostCall
