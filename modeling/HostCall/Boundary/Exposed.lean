import HostCall.Host.Code
import HostCall.Trace

/-!
# Exposed computations

A panic ends whatever is going on, unless a guard around the code that panics catches it. A guard
drops what it has caught, and whoever made that may have code for being dropped, which can panic in
turn: no guard is left then. Copies are made with no guard around them. A check at the boundary to
host code that fails ends a computation as well, and nothing catches that.
-/

namespace HostCall

/-- What dropping something does: others may see it, and it may panic. -/
structure Dropping where
  panic? : Option Panic := none
  events : List String := []

/-- What operations meet around them. -/
structure Setting where
  /-- Whether records of a level are taken. -/
  records : Level → Bool := fun _ => false
  /-- What it does to drop a panic that is no text, by its label. -/
  drop : String → Dropping := fun _ => {}

namespace Setting

/-- What dropping a panic does; a text is dropped without a trace. -/
def dropping (s : Setting) : Panic → Dropping
  | .text _ => {}
  | .other label => s.drop label

end Setting

/-- What ends a computation before its time. -/
inductive Fault where
  /-- A panic that no guard has caught. -/
  | unwound (p : Panic)
  /-- A check at the boundary that failed, with the error that it has for host code. -/
  | breached (e : HostError)

/-- A computation that a fault may end; what was left on the way stays. -/
structure Exposed (α : Type) where
  ending : Except Fault α
  notes : List Note

namespace Exposed

variable {α β : Type}

def andThen (x : Exposed α) (f : α → Exposed β) : Exposed β :=
  match x.ending with
  | .ok a => ⟨(f a).ending, x.notes ++ (f a).notes⟩
  | .error fault => ⟨.error fault, x.notes⟩

instance : Monad Exposed where
  pure a := ⟨.ok a, []⟩
  bind := andThen

def unwind (p : Panic) : Exposed α := ⟨.error (.unwound p), []⟩

def breach (e : HostError) : Exposed α := ⟨.error (.breached e), []⟩

/-- A computation that no fault can end. -/
def sure (t : Traced α) : Exposed α := ⟨.ok t.value, t.notes⟩

/-- An owned copy of a node. -/
def copy (v : NodeView) : Exposed Graph :=
  match v.tryCopy with
  | .ok g => return g
  | .error p => unwind p

/-- Catches a panic, makes an error of it and drops it. A check that failed is not caught. -/
def guarded (s : Setting) (x : Exposed (Except HostError α)) : Exposed (Except HostError α) :=
  match x.ending with
  | .error (.unwound p) =>
    { ending :=
        match (s.dropping p).panic? with
        | some q => .error (.unwound q)
        | none => .ok (.error p.error)
      notes := x.notes ++ (s.dropping p).events.map .event }
  | .error (.breached _) | .ok _ => x

end Exposed

/-- A run of host code that unwinds when it panics. -/
def HostRun.exposed {α : Type} (r : HostRun α) : Exposed (Except HostError α) where
  ending :=
    match r.outcome with
    | .returned a => .ok (.ok a)
    | .failed e => .ok (.error e)
    | .panicked p => .error (.unwound p)
  notes := r.events.map .event

def Response.run (r : Response) : HostRun Value where
  outcome :=
    match r.answer with
    | .ok v => .returned v
    | .error p => .panicked p
  events := r.events

end HostCall
