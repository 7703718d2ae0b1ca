import HostCall.Proofs.Component.Teardown

/-!
# The life of a component

A life begins with the building and ends with the drop, with a run of operations in between. What
a component was made of stays with it all along, and so does what kept it from being bound.
-/

namespace HostCall

variable {σ : Type}

namespace Component

/-- A component and what has become of it: only the state of its instance and the mark that it was
closed may have changed. -/
structure Kin (c d : Component σ) : Prop where
  typeName_eq : d.typeName = c.typeName
  registry_eq : d.registry = c.registry
  evaluator_eq : d.evaluator = c.evaluator
  options_eq : d.options = c.options
  sink_eq : d.sink = c.sink
  cause?_eq : d.cause? = c.cause?

theorem Kin.refl (c : Component σ) : c.Kin c := ⟨rfl, rfl, rfl, rfl, rfl, rfl⟩

theorem Kin.trans {c d e : Component σ} (h : c.Kin d) (h' : d.Kin e) : c.Kin e where
  typeName_eq := h'.typeName_eq.trans h.typeName_eq
  registry_eq := h'.registry_eq.trans h.registry_eq
  evaluator_eq := h'.evaluator_eq.trans h.evaluator_eq
  options_eq := h'.options_eq.trans h.options_eq
  sink_eq := h'.sink_eq.trans h.sink_eq
  cause?_eq := h'.cause?_eq.trans h.cause?_eq

theorem not_isBound_of_unbound {c : Component σ} {cause : BindError}
    (hs : c.standing = .unbound cause) : c.isBound = false := by
  rw [isBound, binding?, hs]
  rfl

theorem isBound_of_bound {c : Component σ} {b : Binding σ} (hs : c.standing = .bound b) :
    c.isBound = true := by
  rw [isBound, binding?, hs]
  rfl

theorem isBound_eq_isNone (c : Component σ) : c.isBound = c.cause?.isNone := by
  rw [isBound, binding?, cause?]
  cases c.standing <;> rfl

theorem Kin.isBound_eq {c d : Component σ} (h : c.Kin d) : d.isBound = c.isBound := by
  rw [isBound_eq_isNone, isBound_eq_isNone, h.cause?_eq]

theorem Kin.closeCall_eq {c d : Component σ} (h : c.Kin d) : d.closeCall = c.closeCall := by
  rw [closeCall, closeCall, h.options_eq]

theorem kin_shut (c : Component σ) : c.Kin c.shut := ⟨rfl, rfl, rfl, rfl, rfl, rfl⟩

theorem kin_answer (c : Component σ) (call : NodeView) : c.Kin (c.answer call).value.2 := by
  rw [answer]
  cases hs : c.standing with
  | unbound cause => exact .refl c
  | bound b => exact ⟨rfl, rfl, rfl, rfl, rfl, by simp [cause?, hs]⟩

theorem kin_close (c : Component σ) : c.Kin c.close.value := by
  cases ho : c.closed with
  | true =>
    rw [close_of_closed ho]
    exact .refl c
  | false =>
    cases hs : c.standing with
    | unbound cause =>
      rw [(close_of_unbound hs ho).1]
      exact c.kin_shut
    | bound b =>
      rw [(close_of_bound hs ho).1]
      exact c.kin_shut.trans (c.shut.kin_answer c.closeCall)

theorem kin_perform (c : Component σ) (op : Operation) : c.Kin (c.perform op).value.2 := by
  cases op with
  | invoke call =>
    rw [component_perform_invoke, (c.invoke_eq_answer call).1]
    exact c.kin_answer call
  | exec call =>
    rw [component_perform_exec, (c.exec_eq_invoke call).1, (c.invoke_eq_answer call).1]
    exact c.kin_answer call
  | close => exact c.kin_close

theorem kin_run (c : Component σ) (ops : List Operation) : c.Kin (c.run ops).value.2 := by
  induction ops generalizing c with
  | nil => exact .refl c
  | cons op ops ih => exact (c.kin_perform op).trans (ih (c.perform op).value.2)

theorem notes_perform (c : Component σ) (op : Operation) :
    (c.perform op).notes =
      match op with
      | .invoke call => (c.invoke call).notes
      | .exec call => (c.exec call).notes
      | .close => c.close.notes := by
  cases op <;> exact List.append_nil _

theorem run_cons (c : Component σ) (op : Operation) (ops : List Operation) :
    (c.run (op :: ops)).value =
        ((c.perform op).value.1 :: ((c.perform op).value.2.run ops).value.1,
          ((c.perform op).value.2.run ops).value.2) ∧
      (c.run (op :: ops)).notes =
        (c.perform op).notes ++ ((c.perform op).value.2.run ops).notes := by
  refine ⟨rfl, ?_⟩
  rw [run, Traced.notes_bind, Traced.notes_bind, Traced.notes_pure, List.append_nil]

end Component

/-! ## Calls that operations make -/

/-- A call that a component has its instance answer, and what for. -/
inductive Dispatched where
  | request (call : NodeView)
  | teardown (call : NodeView)

namespace Dispatched

def call : Dispatched → NodeView
  | request call | teardown call => call

def isTeardown : Dispatched → Bool
  | request _ => false
  | teardown _ => true

end Dispatched

namespace Component

/-- The calls that an operation makes: one, but none without an instance, and none to close what
is closed. -/
def dispatches (c : Component σ) : Operation → List Dispatched
  | .invoke call | .exec call => if c.isBound then [.request call] else []
  | .close => if c.isBound && !c.closed then [.teardown c.closeCall] else []

/-- The call that an operation makes, if it makes one. -/
def callOf (c : Component σ) : Operation → NodeView
  | .invoke call | .exec call => call
  | .close => c.closeCall

section

variable {c : Component σ} {op : Operation} {made : Dispatched}

theorem call_of_mem_dispatches (h : made ∈ c.dispatches op) : made.call = c.callOf op := by
  cases op with
  | invoke call | exec call =>
    rw [dispatches, List.mem_ite_nil_right, List.mem_singleton] at h
    rw [h.2]
    rfl
  | close =>
    rw [dispatches, List.mem_ite_nil_right, List.mem_singleton] at h
    rw [h.2]
    rfl

theorem closed_of_mem_dispatches (h : made ∈ c.dispatches .close) : c.closed = false := by
  rw [dispatches, List.mem_ite_nil_right] at h
  simpa using (Bool.and_eq_true_iff.mp h.1).2

end

/-- Performs operations and drops the component. -/
def live (c : Component σ) (ops : List Operation) : Traced (List Reply × Component σ) := do
  let (replies, c) ← c.run ops
  let c ← c.drop
  return (replies, c)

theorem notes_live_nil (c : Component σ) : (c.live []).notes = c.drop.notes := by
  rw [live, run, Traced.notes_bind, Traced.notes_bind]
  exact List.append_nil _

theorem notes_live_cons (c : Component σ) (op : Operation) (ops : List Operation) :
    (c.live (op :: ops)).notes =
      (c.perform op).notes ++ ((c.perform op).value.2.live ops).notes := by
  rw [live, live, Traced.notes_bind, Traced.notes_bind, (c.run_cons op ops).2, List.append_assoc]
  rfl

end Component

namespace Blueprint

theorem tryBuild_value (p : Blueprint σ) :
    p.tryBuild.value =
      match p.build.value.cause? with
      | none => .ok p.build.value
      | some e => .error e := by
  rw [tryBuild, Traced.value_bind]
  cases p.build.value.cause? <;> rfl

/-- A whole life: building, operations, drop. -/
def live (p : Blueprint σ) (ops : List Operation) : Traced (List Reply × Component σ) := do
  let c ← p.build
  c.live ops

end Blueprint

end HostCall
