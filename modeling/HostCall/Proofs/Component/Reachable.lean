import HostCall.Component.Run
import HostCall.Proofs.Call.Decision

/-!
# Reachable components

Components come from blueprints and go on through operations. Every operation leaves a component
as it was, up to the state of its instance and the mark that it was closed, so the binding of a
component stays sound from its making on.
-/

namespace HostCall

variable {σ : Type}

theorem HostClass.native_of_construct {c : HostClass σ} {k : Constructor σ} {args : ArgumentList}
    {i : Instance σ} (h : (c.construct k args).value = .ok i) : i.native = c.native := by
  rw [construct] at h
  split at h
  · simp only [Traced.value_bind, Traced.value_pure] at h
    cases ho : (k.run args).outcome.contain with
    | ok s =>
      rw [ho] at h
      exact congrArg Instance.native (Except.ok.inj h).symm
    | error e =>
      rw [ho] at h
      cases h
  · cases h

private theorem eq_ok_of_mapError_eq_ok {α ε ε' : Type} {f : ε → ε'} {x : Except ε α} {a : α}
    (h : x.mapError f = .ok a) : x = .ok a := by
  cases x with
  | ok b => exact congrArg Except.ok (Except.ok.inj h)
  | error e => cases h

namespace HostClass

variable {c : HostClass σ} {i : Instance σ}

theorem native_of_instantiatePlain (h : c.instantiatePlain.value = .ok i) :
    i.native = c.native := by
  rw [instantiatePlain] at h
  split at h
  · cases h
  · exact native_of_construct (eq_ok_of_mapError_eq_ok h)

theorem native_of_instantiate {config : Option NodeView}
    (h : (c.instantiate config).value = .ok i) : i.native = c.native := by
  cases config with
  | none => exact native_of_instantiatePlain h
  | some config =>
    rw [instantiate] at h
    split at h
    · exact native_of_construct (eq_ok_of_mapError_eq_ok h)
    · exact native_of_instantiatePlain h

end HostClass

theorem Registry.sound_of_bind {r : Registry σ} {typeName : String} {config : Option NodeView}
    {b : Binding σ} (h : (r.bind typeName config).value = .ok b) : b.Sound := by
  rw [bind] at h
  split at h
  · cases h
  · rename_i c _
    simp only [Traced.value_bind] at h
    cases hi : (c.instantiate config).value with
    | error e =>
      rw [hi] at h
      cases h
    | ok i =>
      rw [hi] at h
      cases Except.ok.inj h
      exact ⟨rfl, rfl, HostClass.native_of_instantiate hi⟩

namespace Component

/-- A component that is bound has a sound binding. -/
def Sound (c : Component σ) : Prop := ∀ b, c.standing = .bound b → b.Sound

/-- The component with another state of its instance, if it has one. -/
def withState (c : Component σ) (s : σ) : Component σ :=
  match c.standing with
  | .bound b => { c with standing := .bound (b.withState s) }
  | .unbound _ => c

@[simp] theorem component_perform_invoke (c : Component σ) (call : NodeView) :
    (c.perform (.invoke call)).value.2 = (c.invoke call).value.2 := rfl

@[simp] theorem component_perform_exec (c : Component σ) (call : NodeView) :
    (c.perform (.exec call)).value.2 = (c.exec call).value.2 := rfl

@[simp] theorem component_perform_close (c : Component σ) :
    (c.perform .close).value.2 = c.close.value := rfl

@[simp] theorem component_run_nil (c : Component σ) : (c.run []).value.2 = c := rfl

@[simp] theorem component_run_cons (c : Component σ) (op : Operation) (ops : List Operation) :
    (c.run (op :: ops)).value.2 = ((c.perform op).value.2.run ops).value.2 := rfl

/-- The components that building and operations lead to. -/
inductive Reachable : Component σ → Prop
  | build (p : Blueprint σ) : Reachable p.build.value
  | perform {c : Component σ} (h : Reachable c) (op : Operation) :
      Reachable (c.perform op).value.2

section Bound

variable {c : Component σ} {b : Binding σ}

theorem withState_of_bound (hb : c.standing = .bound b) (s : σ) :
    c.withState s = { c with standing := .bound (b.withState s) } := by
  rw [withState, hb]

theorem standing_withState (hb : c.standing = .bound b) (s : σ) :
    (c.withState s).standing = .bound (b.withState s) := by
  rw [withState_of_bound hb]

theorem withState_self (hb : c.standing = .bound b) : c.withState b.receiver.state = c := by
  rw [withState_of_bound hb, Binding.withState_self, ← hb]

theorem withState_withState (c : Component σ) (s t : σ) :
    (c.withState s).withState t = c.withState t := by
  cases hs : c.standing with
  | unbound cause => simp only [withState, hs]
  | bound b => simp only [withState, hs, Binding.withState_withState]

theorem withState_of_unbound {cause : BindError} (hu : c.standing = .unbound cause) (s : σ) :
    c.withState s = c := by
  rw [withState, hu]

@[simp] theorem context_withState (c : Component σ) (s : σ) :
    (c.withState s).context = c.context := by
  cases hs : c.standing with
  | unbound cause => rw [withState_of_unbound hs]
  | bound b => rw [withState_of_bound hs]; rfl

theorem Sound.withState (hc : c.Sound) (s : σ) : (c.withState s).Sound := by
  cases hs : c.standing with
  | unbound cause => rwa [withState_of_unbound hs]
  | bound b =>
    rw [withState_of_bound hs]
    intro b' hb'
    cases hb'
    exact (hc b hs).withState s

/-- A call on a bound component answers what belongs to the end that it comes to. -/
theorem answer_of_decides (hc : c.Sound) (hb : c.standing = .bound b) {call : NodeView}
    {d : Decision σ} (h : b.Decides c.context call d) :
    (c.answer call).value = (d.reply b call, c.withState (d.state b)) ∧
      (c.answer call).seen = d.seen b c.evaluator call := by
  obtain ⟨hvalue, hseen⟩ := Binding.dispatch_of_decides (hc b hb) h
  rw [answer, hb, withState_of_bound hb]
  simp only [Traced.value_bind, Traced.seen_bind, Traced.seen_log, hvalue, hseen,
    Traced.value_pure, Traced.seen_pure, List.nil_append, List.append_nil, true_and]
  rfl

end Bound

/-- Reports apart, a component invokes a call by answering it. -/
theorem invoke_eq_answer (c : Component σ) (call : NodeView) :
    (c.invoke call).value = (c.answer call).value ∧
      (c.invoke call).seen = (c.answer call).seen := by
  rw [invoke]
  simp only [Traced.value_bind, Traced.seen_bind]
  cases hr : (c.answer call).value.1 with
  | ok v => simp [← hr]
  | error e => simp [← hr]

theorem exec_eq_invoke (c : Component σ) (call : NodeView) :
    (c.exec call).value.2 = (c.invoke call).value.2 ∧
      (c.exec call).seen = (c.invoke call).seen := by
  rw [exec]
  simp only [Traced.value_bind, Traced.seen_bind]
  cases (c.invoke call).value.1 with
  | ok v => simp
  | error e => simp

theorem Sound.answer {c : Component σ} (hc : c.Sound) (call : NodeView) :
    (c.answer call).value.2.Sound := by
  cases hs : c.standing with
  | unbound cause =>
    rw [Component.answer, hs]
    exact hc
  | bound b =>
    obtain ⟨d, hd⟩ := b.exists_decides c.context call
    rw [(answer_of_decides hc hs hd).1]
    exact hc.withState _

/-- The component once it is marked as closed. -/
def shut (c : Component σ) : Component σ := { c with closed := true }

theorem Sound.shut {c : Component σ} (hc : c.Sound) : c.shut.Sound := hc

/-- The call that closes a component. -/
def closeCall (c : Component σ) : NodeView := (Graph.leaf c.options.closeMethod).view

theorem close_of_closed {c : Component σ} (h : c.closed = true) : c.close = pure c := by
  rw [close, if_pos h]

theorem close_of_unbound {c : Component σ} {cause : BindError} (hu : c.standing = .unbound cause)
    (ho : c.closed = false) : c.close.value = c.shut ∧ c.close.seen = [] := by
  rw [close, if_neg (by simp [ho]), if_pos (by simp [isBound, binding?, hu])]
  exact ⟨rfl, rfl⟩

/-- Reports apart, a bound component that is open closes by answering a call. -/
theorem close_of_bound {c : Component σ} {b : Binding σ} (hb : c.standing = .bound b)
    (ho : c.closed = false) :
    c.close.value = (c.shut.answer c.closeCall).value.2 ∧
      c.close.seen = (c.shut.answer c.closeCall).seen := by
  rw [close, if_neg (by simp [ho]), if_neg (by simp [isBound, binding?, hb]), shut, closeCall]
  simp only [Traced.value_bind, Traced.seen_bind]
  split <;> simp

theorem Sound.close {c : Component σ} (hc : c.Sound) : c.close.value.Sound := by
  cases ho : c.closed with
  | true =>
    rw [close_of_closed ho]
    exact hc
  | false =>
    cases hs : c.standing with
    | unbound cause =>
      rw [(close_of_unbound hs ho).1]
      exact hc.shut
    | bound b =>
      rw [(close_of_bound hs ho).1]
      exact hc.shut.answer _

theorem Sound.perform {c : Component σ} (hc : c.Sound) (op : Operation) :
    (c.perform op).value.2.Sound := by
  cases op with
  | invoke call =>
    rw [component_perform_invoke, (c.invoke_eq_answer call).1]
    exact hc.answer call
  | exec call =>
    rw [component_perform_exec, (c.exec_eq_invoke call).1, (c.invoke_eq_answer call).1]
    exact hc.answer call
  | close => exact hc.close

theorem sound_build (p : Blueprint σ) : p.build.value.Sound := by
  intro b hb
  rw [Blueprint.build] at hb
  simp only [Traced.value_bind] at hb
  cases hr : p.bind.value with
  | error e =>
    rw [hr] at hb
    cases hb
  | ok b' =>
    rw [hr] at hb
    cases hb
    rw [Blueprint.bind] at hr
    split at hr
    · cases hr
    · exact Registry.sound_of_bind hr

/-- A blueprint without a configuration makes its component with the plain constructor. -/
theorem build_of_plain {p : Blueprint σ} {c : HostClass σ} {make : HostRun σ} {s : σ}
    (hv : p.options.isValid = true) (hr : p.registry.get? p.typeName = some c)
    (hn : p.config = none) (hk : c.constructor? [] = some (.plain make))
    (hm : make.outcome = .returned s) :
    p.build.value =
      p.component (.bound (.ofInstance c { native := c.native, state := s })) := by
  have hmade : (c.construct (.plain make) []).value =
      .ok { native := c.native, state := s } := by
    have hlen : ([] : ArgumentList).length = (Constructor.plain make).params.length := rfl
    rw [HostClass.construct, if_pos hlen]
    simp only [Constructor.run, Traced.value_bind, hm]
    rfl
  have hbound : p.bind.value =
      .ok (.ofInstance c { native := c.native, state := s }) := by
    rw [Blueprint.bind, Options.validate, if_pos hv, Registry.bind, hr, hn]
    simp only [HostClass.instantiate, HostClass.instantiatePlain, hk, Traced.value_bind, hmade]
    rfl
  rw [Blueprint.build, Traced.value_bind, hbound]
  rfl

/-- The binding of a component is sound from its making on. -/
theorem Reachable.sound {c : Component σ} (h : Reachable c) : c.Sound := by
  induction h with
  | build p => exact sound_build p
  | perform _ op ih => exact ih.perform op

theorem Reachable.run {c : Component σ} (h : Reachable c) (ops : List Operation) :
    Reachable (c.run ops).value.2 := by
  induction ops generalizing c with
  | nil => exact h
  | cons op ops ih => exact ih (h.perform op)

end Component

theorem Blueprint.sound_run (p : Blueprint σ) (ops : List Operation) :
    (p.build.value.run ops).value.2.Sound :=
  ((Component.Reachable.build p).run ops).sound

end HostCall
