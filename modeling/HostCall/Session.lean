import HostCall.Boundary.Operations

/-!
# Sessions

A session holds a registry and the components made from it, each under an identifier and in the
order in which they were made. A new component drops the one that had its identifier. Operations
are exposed: a panic that gets out of one ends the session.
-/

namespace HostCall

variable {σ : Type}

structure Session (σ : Type) where
  registry : Registry σ := .empty
  components : List (String × Component σ) := []

namespace Session

def find? (s : Session σ) (id : String) : Option (Component σ) := s.components.lookup id

/-- Puts a component in the place of the one under its identifier. -/
def update (s : Session σ) (id : String) (c : Component σ) : Session σ :=
  { s with components := s.components.map fun e => if e.1 == id then (id, c) else e }

/-- Performs an operation of the component under an identifier, if there is one. -/
def perform (setting : Setting) (s : Session σ) (id : String) (op : Operation) :
    Exposed (Option Reply × Session σ) :=
  match s.find? id with
  | none => return (none, s)
  | some c => do
    let (reply, c) ← c.performExposed setting op
    return (some reply, s.update id c)

/-- Drops the component under an identifier, if there is one. -/
def drop (setting : Setting) (s : Session σ) (id : String) : Exposed (Session σ) :=
  match s.find? id with
  | none => return s
  | some c => do
    let _ ← c.dropExposed setting
    return { s with components := s.components.filter fun e => e.1 != id }

/-- Adds a new component under an identifier that is free. -/
def add (s : Session σ) (id : String) (c : Component σ) : Session σ :=
  { s with components := s.components ++ [(id, c)] }

/-- Drops all components in the order in which they were made. -/
def finish (setting : Setting) (s : Session σ) : Exposed Unit :=
  s.components.forM fun e => do
    let _ ← e.2.dropExposed setting
    return ()

end Session

end HostCall
