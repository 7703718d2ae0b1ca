import HostCall.Component.Lifecycle

/-!
# Runs of a component

Between being built and being dropped a component performs operations one after the other.
-/

namespace HostCall

variable {σ : Type}

/-- What a component can be asked to do. -/
inductive Operation where
  /-- Answer a call or tell why not. -/
  | invoke (call : NodeView)
  /-- Answer a call with a value in any case. -/
  | exec (call : NodeView)
  | close

inductive Reply where
  | result (r : Except CallError Value)
  | value (v : Value)
  | closed (b : Bool)

namespace Component

def perform (c : Component σ) : Operation → Traced (Reply × Component σ)
  | .invoke call => do
    let (r, c) ← c.invoke call
    return (.result r, c)
  | .exec call => do
    let (v, c) ← c.exec call
    return (.value v, c)
  | .close => do
    let c ← c.close
    return (.closed c.closed, c)

def run (c : Component σ) : List Operation → Traced (List Reply × Component σ)
  | [] => return ([], c)
  | op :: ops => do
    let (reply, c) ← c.perform op
    let (replies, c) ← c.run ops
    return (reply :: replies, c)

end Component

end HostCall
