import HostCall.Component.Basic

/-!
# The life of a component

A component is built once, closed at most once, and dropped in the end. Closing calls the close
method like any other call without arguments; a class without one is left alone. Dropping closes
a component first, if the options say so.
-/

namespace HostCall

variable {σ : Type}

namespace Component

/-- Closes a component, the first time only. A failure other than a missing close method is
reported as a warning. -/
def close (c : Component σ) : Traced (Component σ) :=
  if c.closed then return c
  else
    let c := { c with closed := true }
    if !c.isBound then do
      .log .trace (c.typeName ++ ": close on unbound component ignored")
      return c
    else do
      let (result, c) ← c.answer (Graph.leaf c.options.closeMethod).view
      match result with
      | .ok _ => .log .debug (c.typeName ++ ": closed")
      | .error (.noSuchMethod ..) =>
        .log .trace (c.typeName ++ ": no " ++ c.options.closeMethod ++ "() to call")
      | .error e => c.sink.report { e.diagnostic with severity := .warning }
      return c

/-- Drops a component; answers what it was in the end. -/
def drop (c : Component σ) : Traced (Component σ) :=
  if c.options.closeOnDrop then c.close else return c

end Component

structure Blueprint (σ : Type) where
  registry : Registry σ
  typeName : String
  config : Option NodeView := none
  options : Options := {}
  evaluator : Evaluator := Evaluator.literal
  sink : Sink := .log

namespace Blueprint

/-- Binds an instance, unless the options are not valid. -/
def bind (p : Blueprint σ) : Traced (Except BindError (Binding σ)) :=
  match p.options.validate with
  | .error e => return .error (.invalidOptions p.typeName e.message)
  | .ok () => p.registry.bind p.typeName p.config

/-- The component of a blueprint in some standing. -/
def component (p : Blueprint σ) (standing : Standing σ) : Component σ :=
  { typeName := p.typeName, standing, registry := p.registry, evaluator := p.evaluator,
    options := p.options, sink := p.sink, closed := false }

/-- Builds a component. One that cannot be bound is reported and refuses every call. -/
def build (p : Blueprint σ) : Traced (Component σ) := do
  match ← p.bind with
  | .ok b => return p.component (.bound b)
  | .error e =>
    p.sink.report ⟨.error, .construction, e.message⟩
    return p.component (.unbound e)

/-- Builds a component that is bound; one that cannot be bound is dropped at once. -/
def tryBuild (p : Blueprint σ) : Traced (Except BindError (Component σ)) := do
  let c ← p.build
  match c.cause? with
  | none => return .ok c
  | some e =>
    let _ ← c.drop
    return .error e

end Blueprint

end HostCall
