import HostCall.Proofs.Boundary.Guards

/-!
# Panics of host code

Constructors, fields, methods and evaluators may panic, with any payload. A panic that a guard has
caught and got rid of becomes the error of the operation, around its message, and a component goes
on from the state that the code has left. What is not contained is a panic of the copies that are
made without a guard, and one of a payload that panics on being dropped.
-/

namespace HostCall

variable {σ : Type}

/-- The reply to an operation whose call has failed. A closing does not tell. -/
def Operation.failure : Operation → CallError → Reply
  | invoke _, err => .result (.error err)
  | exec _, err => .value (.text err.message)
  | close, _ => .closed true

namespace Component

/-- A call meets a panic, and the guard that catches it gets rid of it. -/
inductive Catches (s : Setting) (c : Component σ) (call : NodeView) : CallError → σ → Prop
  | intro {b : Binding σ} {p : Panic} {err : CallError} {st : σ} (bound : c.standing = .bound b)
      (roomy : Roomy s call) (panics : b.Panics c.context call p err st)
      (drops : (s.dropping p).panic? = none) : Catches s c call err st

section

variable {s : Setting} {c : Component σ} {call : NodeView} {err : CallError} {st : σ}

/-- A call whose panic is got rid of comes to one of its ends, and nothing cuts it short. -/
theorem Catches.exists_decides (h : c.Catches s call err st) :
    ∃ b d, c.standing = .bound b ∧ b.Decides c.context call d ∧ cut? s b call d = none ∧
      d.reply b call = .error err ∧ d.state b = st := by
  obtain ⟨bound, roomy, panics, drops⟩ := h
  obtain ⟨d, hd, hp, hreply, hstate⟩ := panics.exists_decides
  refine ⟨_, d, bound, hd, ?_, hreply, hstate⟩
  rw [cut?_of_roomy roomy, hp]
  exact drops

end

end Component

namespace Blueprint

section

variable {p : Blueprint σ} {c : HostClass σ} {r : HostRun σ} {panic : Panic}

end

end Blueprint

namespace Tally

end Tally

namespace Vessel

/-- A class whose instances hold the configuration that they are made of. -/
def hostClass : HostClass Graph where
  name := "demo.Vessel"
  native := "Vessel"
  constructors := [.configured fun config => { outcome := .returned config }]
  constructors_distinct := by decide
  fields_distinct := by decide
  methods_distinct := by decide

/-- A node that has one child and claims the most children that a count can be. -/
def overstated (name : String) : NodeView := .mk name 0xFFFFFFFFFFFFFFFF [some (.mk "a" 0 [])]

def blueprint : Blueprint Graph :=
  { registry := Registry.empty.insert hostClass, typeName := "demo.Vessel",
    config := some (overstated "seed") }

end Vessel

end HostCall
