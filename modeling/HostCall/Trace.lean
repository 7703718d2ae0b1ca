import HostCall.Diagnostics

/-!
# Traced computations

A computation answers a value and leaves notes: what host code and evaluators let others see, what
was logged, and what was reported to sinks, all in the order in which it happened. It goes to its
end in any case: panics of host code are caught, and there is room for the copies that are made.
Operations that do not take this for granted are in `HostCall.Boundary.Operations`.
-/

namespace HostCall

inductive Level where
  | error
  | warn
  | info
  | debug
  | trace
deriving DecidableEq

/-- One thing that others can see. -/
inductive Note where
  /-- An effect of host code or of an evaluator. -/
  | event (text : String)
  | log (level : Level) (text : String)
  | report (sink : Sink) (diagnostic : Diagnostic)
deriving DecidableEq

namespace Note

/-- The diagnostic that a note brings to the ledger of a name. -/
def entryFor? (name : String) : Note → Option Diagnostic
  | report (.ledger n) d => if n = name then some d else none
  | _ => none

end Note

namespace Ledger

/-- The ledger of a name after some notes. -/
def receive (l : Ledger) (name : String) (notes : List Note) : Ledger :=
  (notes.filterMap (Note.entryFor? name)).foldl report l

/-- A ledger keeps what it had and adds what the notes bring to it, in order. -/
theorem entries_receive (l : Ledger) (name : String) (notes : List Note) :
    (l.receive name notes).entries = l.entries ++ notes.filterMap (Note.entryFor? name) := by
  rw [receive]
  generalize notes.filterMap (Note.entryFor? name) = ds
  induction ds generalizing l with
  | nil => simp only [List.foldl_nil, List.append_nil]
  | cons d ds ih => simp only [List.foldl_cons, ih, report, List.append_assoc, List.singleton_append]

end Ledger

/-- A value and the notes left on the way to it. -/
structure Traced (α : Type) where
  value : α
  notes : List Note := []

namespace Traced

variable {α β : Type}

/-- Goes on with the value; the notes follow each other. -/
def andThen (x : Traced α) (f : α → Traced β) : Traced β :=
  let y := f x.value
  ⟨y.value, x.notes ++ y.notes⟩

instance : Monad Traced where
  pure a := ⟨a, []⟩
  bind := andThen

@[simp] theorem value_pure (a : α) : (pure a : Traced α).value = a := rfl

@[simp] theorem notes_pure (a : α) : (pure a : Traced α).notes = [] := rfl

@[simp] theorem value_bind (x : Traced α) (f : α → Traced β) :
    (x >>= f).value = (f x.value).value := rfl

@[simp] theorem notes_bind (x : Traced α) (f : α → Traced β) :
    (x >>= f).notes = x.notes ++ (f x.value).notes := rfl

def leave (notes : List Note) : Traced Unit := ⟨(), notes⟩

/-- Leaves the effects of host code. -/
def events (texts : List String) : Traced Unit := leave (texts.map .event)

def log (level : Level) (text : String) : Traced Unit := leave [.log level text]

end Traced

namespace Severity

def level : Severity → Level
  | error => .error
  | warning => .warn

end Severity

namespace Sink

/-- Reports a diagnostic to a sink; the log shows its kind before its message. -/
def report (sink : Sink) (d : Diagnostic) : Traced Unit :=
  .leave (.report sink d ::
    match sink with
    | log => [.log d.severity.level ("[" ++ d.kind.tag ++ "] " ++ d.message)]
    | ledger _ | discard => [])

end Sink

end HostCall
