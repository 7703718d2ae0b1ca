import HostCall.Boundary.Exposed
import HostCall.Component.Run

/-!
# Exposed operations

Every operation as it runs when nothing is taken for granted at the boundary to host code. Host
code runs at four places, and each of them has its guard; nothing else below catches anything. Two
copies stand outside all guards: that of a configuration and, where records of the debug level are
taken, that of a call. Nodes are taken to answer, and sinks to take what is reported.
-/

namespace HostCall

open Exposed (sure breach guarded)

variable {σ : Type}

/-! ## Places where host code runs -/

def Constructor.runExposed : Constructor σ → ArgumentList → Exposed (Except HostError σ)
  | plain make, _ => make.exposed
  | configured make, args =>
    match ArgumentList.get args (.plain .graph) 0 with
    | .error e => breach e
    | .ok config => (make config).exposed

namespace HostClass

def constructExposed (s : Setting) (c : HostClass σ) (k : Constructor σ) (args : ArgumentList) :
    Exposed (Except HostError (Instance σ)) :=
  if args.length = k.params.length then do
    let made ← guarded s (k.runExposed args)
    return made.map fun state => { native := c.native, state }
  else breach (.arity k.params.length args.length)

def readFieldExposed (s : Setting) (c : HostClass σ) (f : Field σ) (i : Instance σ) :
    Exposed (Except HostError Value) :=
  guarded s
    (if i.native = c.native then (f.read i.state).run.exposed else breach (.receiver c.native))

/-- A panic does not take back what the code did to the state. -/
def callExposed (s : Setting) (c : HostClass σ) (m : Method σ) (i : Instance σ)
    (args : ArgumentList) : Exposed (Except HostError Value × Instance σ) :=
  if args.length = m.arity then
    if i.native = c.native then do
      let (run, state) := m.body i.state args
      let result ← guarded s run.exposed
      return (result, { i with state })
    else breach (.receiver c.native)
  else breach (.arity m.arity args.length)

end HostClass

def Arguments.evaluateExposed (s : Setting) (name : String) (evaluator : Evaluator)
    (index : Nat) : List NodeView → Exposed (Except CallError (List Value))
  | [] => return .ok []
  | child :: rest => do
    match ← guarded s (evaluator child).run.exposed with
    | .error e => return .error (.evaluation name index e)
    | .ok v =>
      let more ← evaluateExposed s name evaluator (index + 1) rest
      return more.map (v :: ·)

/-! ## Calls -/

def Arguments.ofCallExposed (s : Setting) (call : NodeView) (evaluator : Evaluator)
    (maxArgs : Option Nat) : Exposed (Except CallError Arguments) :=
  match maxArgs.filter (· < call.claimed) with
  | some max => return .error (.tooManyArguments call.name call.claimed max)
  | none => do
    match ← evaluateExposed s call.name evaluator 0 call.children with
    | .error e => return .error e
    | .ok values =>
      sure (.leave (describe call.name 0 values))
      return .ok ⟨values⟩

namespace Binding

def readFieldExposed (s : Setting) (b : Binding σ) (f : Field σ) :
    Exposed (Except CallError Value) := do
  sure (.log .trace (b.owner.name ++ ": field access " ++ f.name))
  let result ← b.owner.readFieldExposed s f b.receiver
  return result.mapError (.invocation (b.owner.name ++ "." ++ f.name))

def callMethodExposed (s : Setting) (b : Binding σ) (m : Method σ) (fit : Fit)
    (args : Arguments) : Exposed (Except CallError Value × Binding σ) := do
  let (result, receiver) ← b.owner.callExposed s m b.receiver args.values
  let b := { b with receiver }
  match result with
  | .ok v =>
    sure (.log .debug ("invoked: " ++ CallType.signature b.owner.name m.name args.types ++ " as " ++
      m.signature ++ " (" ++ fit.tag ++ ")"))
    return (.ok v, b)
  | .error e =>
    return (.error (.invocation (CallType.signature b.owner.name m.name m.params) e), b)

def dispatchMethodExposed (s : Setting) (b : Binding σ) (ctx : CallContext) (call : NodeView) :
    Exposed (Except CallError Value × Binding σ) := do
  match ← Arguments.ofCallExposed s call ctx.evaluator ctx.options.maxArgs with
  | .error e => return (.error e, b)
  | .ok args =>
    match Method.select ctx.hierarchy b.methods call.name args.types with
    | none => return (.error (.noSuchMethod call.name args.types b.owner.name), b)
    | some (m, fit) => b.callMethodExposed s m fit args

def dispatchExposed (s : Setting) (b : Binding σ) (ctx : CallContext) (call : NodeView) :
    Exposed (Except CallError Value × Binding σ) :=
  match b.fieldFor? ctx.options call with
  | some f => do
    let result ← b.readFieldExposed s f
    return (result, b)
  | none => b.dispatchMethodExposed s ctx call

end Binding

/-! ## Components -/

namespace Component

def answerExposed (s : Setting) (c : Component σ) (call : NodeView) :
    Exposed (Except CallError Value × Component σ) :=
  match c.standing with
  | .unbound cause => return (.error (.unusable c.typeName cause), c)
  | .bound b => do
    -- nothing is copied for a record that is not taken
    let input ← if s.records .debug then Exposed.copy call else pure call.copy
    sure (.log .debug ("input\n" ++ input.outline))
    let (result, b) ← b.dispatchExposed s c.context call
    return (result, { c with standing := .bound b })

def invokeExposed (s : Setting) (c : Component σ) (call : NodeView) :
    Exposed (Except CallError Value × Component σ) := do
  let (result, c) ← c.answerExposed s call
  match result with
  | .ok v => return (.ok v, c)
  | .error e =>
    sure (c.sink.report e.diagnostic)
    return (.error e, c)

def execExposed (s : Setting) (c : Component σ) (call : NodeView) :
    Exposed (Value × Component σ) := do
  let (result, c) ← c.invokeExposed s call
  match result with
  | .ok v => return (v, c)
  | .error e => return (.text e.message, c)

def closeExposed (s : Setting) (c : Component σ) : Exposed (Component σ) :=
  if c.closed then return c
  else
    let c := { c with closed := true }
    if !c.isBound then do
      sure (.log .trace (c.typeName ++ ": close on unbound component ignored"))
      return c
    else do
      let (result, c) ← c.answerExposed s (Graph.leaf c.options.closeMethod).view
      match result with
      | .ok _ => sure (.log .debug (c.typeName ++ ": closed"))
      | .error (.noSuchMethod ..) =>
        sure (.log .trace (c.typeName ++ ": no " ++ c.options.closeMethod ++ "() to call"))
      | .error e => sure (c.sink.report { e.diagnostic with severity := .warning })
      return c

def dropExposed (s : Setting) (c : Component σ) : Exposed (Component σ) :=
  if c.options.closeOnDrop then c.closeExposed s else return c

def performExposed (s : Setting) (c : Component σ) : Operation → Exposed (Reply × Component σ)
  | .invoke call => do
    let (r, c) ← c.invokeExposed s call
    return (.result r, c)
  | .exec call => do
    let (v, c) ← c.execExposed s call
    return (.value v, c)
  | .close => do
    let c ← c.closeExposed s
    return (.closed c.closed, c)

def runExposed (s : Setting) (c : Component σ) :
    List Operation → Exposed (List Reply × Component σ)
  | [] => return ([], c)
  | op :: ops => do
    let (reply, c) ← c.performExposed s op
    let (replies, c) ← c.runExposed s ops
    return (reply :: replies, c)

end Component

/-! ## Building -/

namespace HostClass

def instantiatePlainExposed (s : Setting) (c : HostClass σ) :
    Exposed (Except BindError (Instance σ)) :=
  match c.constructor? [] with
  | none => return .error (.noUsableConstructor c.name)
  | some k => do
    let made ← c.constructExposed s k []
    return made.mapError (.constructorFailed c.name)

def instantiateExposed (s : Setting) (c : HostClass σ) (config : Option NodeView) :
    Exposed (Except BindError (Instance σ)) :=
  match config with
  | none => c.instantiatePlainExposed s
  | some config =>
    match c.constructor? [.node] with
    | some k => do
      sure (.log .trace (c.name ++ ": using config constructor"))
      let config ← Exposed.copy config
      let made ← c.constructExposed s k [.node config]
      return made.mapError (.constructorFailed c.name)
    | none => do
      sure (.log .trace (c.name ++ ": no config constructor, trying default"))
      c.instantiatePlainExposed s

end HostClass

def Registry.bindExposed (s : Setting) (r : Registry σ) (typeName : String)
    (config : Option NodeView) : Exposed (Except BindError (Binding σ)) :=
  match r.get? typeName with
  | none => return .error (.classNotFound typeName)
  | some c => do
    match ← c.instantiateExposed s config with
    | .error e => return .error e
    | .ok i =>
      let b := Binding.ofInstance c i
      sure (.log .debug ("bound " ++ c.name ++ " (" ++ toString b.fields.size ++ " fields, " ++
        toString b.methods.length ++ " methods)"))
      return .ok b

namespace Blueprint

def bindExposed (s : Setting) (p : Blueprint σ) : Exposed (Except BindError (Binding σ)) :=
  match p.options.validate with
  | .error e => return .error (.invalidOptions p.typeName e.message)
  | .ok () => p.registry.bindExposed s p.typeName p.config

def buildExposed (s : Setting) (p : Blueprint σ) : Exposed (Component σ) := do
  match ← p.bindExposed s with
  | .ok b => return p.component (.bound b)
  | .error e =>
    sure (p.sink.report ⟨.error, .construction, e.message⟩)
    return p.component (.unbound e)

def tryBuildExposed (s : Setting) (p : Blueprint σ) :
    Exposed (Except BindError (Component σ)) := do
  let c ← p.buildExposed s
  match c.cause? with
  | none => return .ok c
  | some e =>
    let _ ← c.dropExposed s
    return .error e

end Blueprint

end HostCall
