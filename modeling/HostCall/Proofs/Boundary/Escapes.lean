import HostCall.Proofs.Boundary.Goes
import HostCall.Proofs.Component.Life

/-!
# Panics that get out

A panic gets out of an operation for one of two reasons: a copy was asked for without room for it,
or a guard has caught a panic and dropping that one panics. Either ends the operation at once, and
a component that was there before is left in the state that the code has made.
-/

namespace HostCall

variable {σ : Type}

/-! ## Calls that meet a panic -/

/-- The panic that a call has met when it comes to an end, if it met one. -/
def Decision.panic? (b : Binding σ) : Decision σ → Option Panic
  | field f => (f.read b.receiver.state).run.outcome.panic?
  | panicked _ p => some p
  | method m values => (m.body b.receiver.state values).1.outcome.panic?
  | tooMany _ | unmatched _ => none

/-- A call meets a panic: what it fails with, and the state in which the instance is left. -/
inductive Binding.Panics (b : Binding σ) (ctx : CallContext) (call : NodeView) :
    Panic → CallError → σ → Prop
  | field {f : Field σ} {p : Panic} (answers : b.FieldAnswers ctx call f)
      (panics : (f.read b.receiver.state).answer = .error p) :
      Panics b ctx call p (.invocation (b.owner.name ++ "." ++ call.name) (.panicked p.message))
        b.receiver.state
  | argument {i : Nat} {p : Panic} (unread : b.Unread ctx call)
      (within : call.Within ctx.options.maxArgs)
      (panics : ctx.evaluator.PanicsFirst call.children i p) :
      Panics b ctx call p (.evaluation call.name i (.panicked p.message)) b.receiver.state
  | method {m : Method σ} {values : List Value} {p : Panic}
      (resolves : b.Resolves ctx call m values)
      (panics : (m.body b.receiver.state values).1.outcome = .panicked p) :
      Panics b ctx call p
        (.invocation (CallType.signature b.owner.name call.name m.params) (.panicked p.message))
        (m.body b.receiver.state values).2

namespace Binding

variable {b : Binding σ} {ctx : CallContext} {call : NodeView} {p : Panic}

/-- A call that meets a panic comes to an end like any other call. -/
theorem Panics.exists_decides {err : CallError} {st : σ} (h : b.Panics ctx call p err st) :
    ∃ d, b.Decides ctx call d ∧ d.panic? b = some p ∧ d.reply b call = .error err ∧
      d.state b = st := by
  cases h with
  | @field f p answers panics =>
    refine ⟨_, .field answers, ?_, ?_, rfl⟩
    · exact Response.panic?_run_eq_some_iff.mpr panics
    · rw [Decision.reply, fieldReply, Response.contain, panics, answers.2.2.2]
      rfl
  | argument unread within panics => exact ⟨_, .panicked unread within panics, rfl, rfl, rfl⟩
  | @method m values p resolves panics =>
    refine ⟨_, .method resolves, ?_, ?_, rfl⟩
    · exact Outcome.panic?_eq_some_iff.mpr panics
    · obtain ⟨-, fit, hchosen⟩ := resolves
      rw [Decision.reply, methodReply, panics, hchosen.takes.2.1]
      rfl

/-- Only a call that meets a panic comes to an end with one. -/
theorem Decides.panics {d : Decision σ} (h : b.Decides ctx call d) (hp : d.panic? b = some p) :
    ∃ err, b.Panics ctx call p err (d.state b) := by
  cases h with
  | field answers => exact ⟨_, .field answers (Response.panic?_run_eq_some_iff.mp hp)⟩
  | tooMany unread exceeds => cases hp
  | panicked unread within panics =>
    cases hp
    exact ⟨_, .argument unread within panics⟩
  | unmatched ready untaken => cases hp
  | @method m values resolves =>
    exact ⟨_, .method resolves (Outcome.panic?_eq_some_iff.mp hp)⟩

end Binding

/-! ## Operations -/

namespace Component

/-- The calls that records are taken of can be copied. -/
def Roomy (s : Setting) (call : NodeView) : Prop := s.records .debug = true → call.fits = true

/-- A panic gets out of the answering of a call. -/
inductive CallEscapes (s : Setting) (c : Component σ) (call : NodeView) : Panic → Prop
  /-- The call is copied for a record, and there is no room for that. -/
  | full {b : Binding σ} (bound : c.standing = .bound b) (recorded : s.records .debug = true)
      (full : call.fits = false) : CallEscapes s c call .noRoom
  /-- The call meets a panic, and dropping that one panics. -/
  | dropped {b : Binding σ} {p q : Panic} {err : CallError} {st : σ}
      (bound : c.standing = .bound b) (roomy : Roomy s call)
      (panics : b.Panics c.context call p err st) (drops : (s.dropping p).panic? = some q) :
      CallEscapes s c call q

/-- A panic gets out of an operation: out of the answering of the call that it makes. -/
def Escapes (s : Setting) (c : Component σ) (op : Operation) (q : Panic) : Prop :=
  ∃ d ∈ c.dispatches op, c.CallEscapes s d.call q

/-- A panic gets out of the drop of a component: out of the closing that belongs to it. -/
def DropEscapes (s : Setting) (c : Component σ) (q : Panic) : Prop :=
  c.options.closeOnDrop = true ∧ c.Escapes s .close q

/-- A panic gets out of the first operation of a run that one gets out of. -/
def RunEscapes (s : Setting) (c : Component σ) : List Operation → Panic → Prop
  | [], _ => False
  | op :: ops, q =>
    c.Escapes s op q ∨
      (∀ r, ¬ c.Escapes s op r) ∧ RunEscapes s (c.perform op).value.2 ops q

/-- The component as an operation leaves it, the state of its instance apart. -/
def past (c : Component σ) : Operation → Component σ
  | .close => c.shut
  | .invoke _ | .exec _ => c

theorem Sound.past {c : Component σ} (hc : c.Sound) (op : Operation) : (c.past op).Sound := by
  cases op with
  | invoke call => exact hc
  | exec call => exact hc
  | close => exact hc.shut

theorem kin_past (c : Component σ) (op : Operation) : c.Kin (c.past op) := by
  cases op with
  | invoke call => exact .refl c
  | exec call => exact .refl c
  | close => exact c.kin_shut

theorem kin_withState (c : Component σ) (st : σ) : c.Kin (c.withState st) := by
  cases hs : c.standing with
  | unbound cause =>
    rw [withState_of_unbound hs]
    exact .refl c
  | bound b =>
    rw [withState_of_bound hs]
    exact ⟨rfl, rfl, rfl, rfl, rfl, by simp [cause?, hs]⟩

end Component

/-! ## Building -/

namespace Blueprint

/-- The class that a blueprint names, and the run of the constructor that makes the instance. -/
inductive Constructs (p : Blueprint σ) : HostClass σ → HostRun σ → Prop
  | configured {c : HostClass σ} {make : Graph → HostRun σ} {v : NodeView}
      (found : p.registry.get? p.typeName = some c) (given : p.config = some v)
      (has : c.constructor? [.node] = some (.configured make)) : Constructs p c (make v.copy)
  | plain {c : HostClass σ} {make : HostRun σ}
      (found : p.registry.get? p.typeName = some c)
      (without : p.config = none ∨ c.constructor? [.node] = none)
      (has : c.constructor? [] = some (.plain make)) : Constructs p c make

/-- The configuration is copied: the class that the blueprint names has a constructor for it. -/
def Copies (p : Blueprint σ) (v : NodeView) : Prop :=
  p.options.isValid = true ∧ p.config = some v ∧
    ∃ c k, p.registry.get? p.typeName = some c ∧ c.constructor? [.node] = some k

/-- There is room for the copy of the configuration, if it is copied. -/
def HasRoom (p : Blueprint σ) : Prop := ∀ v, p.Copies v → v.fits = true

/-- A panic gets out of the building. -/
inductive Escapes (s : Setting) (p : Blueprint σ) : Panic → Prop
  | full {v : NodeView} (copies : p.Copies v) (full : v.fits = false) : Escapes s p .noRoom
  | dropped {c : HostClass σ} {r : HostRun σ} {panic q : Panic}
      (valid : p.options.isValid = true) (room : p.HasRoom) (constructs : p.Constructs c r)
      (panics : r.outcome = .panicked panic) (drops : (s.dropping panic).panic? = some q) :
      Escapes s p q

/-- What a component of a blueprint can be at some time of its life. -/
inductive Stage (p : Blueprint σ) : Component σ → Prop
  | built : Stage p p.build.value
  | performed {c : Component σ} (h : Stage p c) (op : Operation) :
      Stage p (c.perform op).value.2
  /-- A panic got out of an operation and has left the instance in any state whatever. -/
  | disturbed {c : Component σ} (h : Stage p c) (op : Operation) (st : σ) :
      Stage p ((c.past op).withState st)

variable {p : Blueprint σ} {c : Component σ}

theorem Stage.run (h : p.Stage c) (ops : List Operation) : p.Stage (c.run ops).value.2 := by
  induction ops generalizing c with
  | nil => exact h
  | cons op ops ih => exact ih (h.performed op)

theorem Stage.sound (h : p.Stage c) : c.Sound := by
  induction h with
  | built => exact Component.sound_build p
  | performed _ op ih => exact ih.perform op
  | disturbed _ op st ih => exact (ih.past op).withState st

/-- What a component was made of stays with it, also where panics get out. -/
theorem Stage.kin (h : p.Stage c) : p.build.value.Kin c := by
  induction h with
  | built => exact .refl _
  | performed _ op ih => exact ih.trans (Component.kin_perform _ op)
  | disturbed _ op st ih =>
    exact (ih.trans (Component.kin_past _ op)).trans (Component.kin_withState _ st)

end Blueprint

end HostCall
