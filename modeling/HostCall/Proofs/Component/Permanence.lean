import HostCall.Proofs.Component.Life

/-!
# What operations do not depend on

Operations never look for a class and never run a constructor. A component whose class has other
constructors, in another registry of the same hierarchy, answers alike in every run and leaves the
same notes. The class of an instance stays the one that it was made from, and a component without
an instance gives every call one answer.
-/

namespace HostCall

open Traced (Agrees)

variable {σ : Type}

/-- Two classes that differ in their constructors at most. -/
def HostClass.Twin (c d : HostClass σ) : Prop :=
  d.toClassDraft = { c.toClassDraft with constructors := d.constructors }

namespace HostClass.Twin

variable {c d : HostClass σ}

theorem name_eq (h : c.Twin d) : d.name = c.name := by
  rw [h]

theorem native_eq (h : c.Twin d) : d.native = c.native := by
  rw [h]

theorem readField_eq (h : c.Twin d) (f : Field σ) (i : Instance σ) :
    d.readField f i = c.readField f i := by
  rw [readField, readField, h.native_eq]

theorem call_eq (h : c.Twin d) (m : Method σ) (i : Instance σ) (args : ArgumentList) :
    d.call m i args = c.call m i args := by
  rw [call, call, h.native_eq]

end HostClass.Twin

/-- Two bindings whose classes differ in their constructors at most. -/
structure Binding.Twin (b b' : Binding σ) : Prop where
  owner : b.owner.Twin b'.owner
  receiver : b'.receiver = b.receiver
  fields : b'.fields = b.fields
  methods : b'.methods = b.methods

/-- One reply, and what is left are twins. -/
def Replies {α β : Type} (twin : β → β → Prop) (p q : α × β) : Prop := q.1 = p.1 ∧ twin p.2 q.2

namespace Binding.Twin

variable {b b' : Binding σ}

theorem agrees_callMethod (h : b.Twin b') (m : Method σ) (fit : Fit) (args : Arguments) :
    Agrees True (Replies Twin) (b.callMethod m fit args) (b'.callMethod m fit args) := by
  rw [callMethod, callMethod, h.owner.call_eq, h.receiver]
  refine (Agrees.refl _).bind fun p _ he => ?_
  subst he
  obtain ⟨result, receiver⟩ := p
  have hafter : Twin { b with receiver } { b' with receiver } :=
    ⟨h.owner, rfl, h.fields, h.methods⟩
  cases result with
  | ok v =>
    simp only [h.owner.name_eq]
    exact (Agrees.refl _).bind fun _ _ _ => .pure ⟨rfl, hafter⟩
  | error e =>
    simp only [h.owner.name_eq]
    exact .pure ⟨rfl, hafter⟩

theorem agrees_dispatch (h : b.Twin b') (ctx : CallContext) (call : NodeView) :
    Agrees True (Replies Twin) (b.dispatch ctx call) (b'.dispatch ctx call) := by
  rw [dispatch, dispatch, fieldFor?, fieldFor?, h.fields]
  split
  · rw [readField, readField, h.owner.name_eq, h.owner.readField_eq, h.receiver]
    exact (Agrees.refl _).bind fun _ _ he => .pure ⟨he.symm, h⟩
  · rw [dispatchMethod, dispatchMethod]
    refine (Agrees.refl _).bind fun args _ he => ?_
    subst he
    cases args with
    | error e => exact .pure ⟨rfl, h⟩
    | ok args =>
      simp only [h.methods]
      cases Method.select ctx.hierarchy b.methods call.name args.types with
      | none => exact .pure ⟨by rw [h.owner.name_eq], h⟩
      | some chosen => exact h.agrees_callMethod chosen.1 chosen.2 args

end Binding.Twin

/-- Twins in their bindings, or not bound for the same cause. -/
inductive Standing.Twin : Standing σ → Standing σ → Prop
  | bound {b b' : Binding σ} (h : b.Twin b') : Twin (.bound b) (.bound b')
  | unbound (cause : BindError) : Twin (.unbound cause) (.unbound cause)

def HostClass.barren (c : HostClass σ) : HostClass σ :=
  { c with constructors := [], constructors_distinct := List.nodup_nil }

namespace Standing

def barren : Standing σ → Standing σ
  | bound b => bound { b with owner := b.owner.barren }
  | unbound cause => unbound cause

theorem twin_barren (s : Standing σ) : s.Twin s.barren := by
  cases s with
  | bound b => exact .bound ⟨rfl, rfl, rfl, rfl⟩
  | unbound cause => exact .unbound cause

end Standing

/-- Two components that may differ in the constructors of the class, and in the registry where it
declares the same hierarchy. -/
structure Component.Twin (c d : Component σ) : Prop where
  typeName : d.typeName = c.typeName
  hierarchy : d.registry.hierarchy = c.registry.hierarchy
  evaluator : d.evaluator = c.evaluator
  options : d.options = c.options
  sink : d.sink = c.sink
  closed : d.closed = c.closed
  standing : c.standing.Twin d.standing

namespace Component.Twin

variable {c d : Component σ}

theorem context_eq (h : c.Twin d) : d.context = c.context := by
  rw [context, context, h.hierarchy, h.evaluator, h.options]

theorem standing_cases (h : c.Twin d) :
    (∃ b b', c.standing = .bound b ∧ d.standing = .bound b' ∧ b.Twin b') ∨
      ∃ cause, c.standing = .unbound cause ∧ d.standing = .unbound cause := by
  have hs := h.standing
  generalize c.standing = s at hs ⊢
  generalize d.standing = t at hs ⊢
  cases hs with
  | bound hb => exact .inl ⟨_, _, rfl, rfl, hb⟩
  | unbound cause => exact .inr ⟨cause, rfl, rfl⟩

theorem isBound_eq (h : c.Twin d) : d.isBound = c.isBound := by
  rcases h.standing_cases with ⟨b, b', hb, hb', -⟩ | ⟨cause, hc, hd⟩
  · rw [isBound_of_bound hb, isBound_of_bound hb']
  · rw [not_isBound_of_unbound hc, not_isBound_of_unbound hd]

theorem with_standing (h : c.Twin d) {s t : Standing σ} (hs : s.Twin t) :
    Twin { c with standing := s } { d with standing := t } :=
  ⟨h.typeName, h.hierarchy, h.evaluator, h.options, h.sink, h.closed, hs⟩

theorem shut (h : c.Twin d) : c.shut.Twin d.shut :=
  ⟨h.typeName, h.hierarchy, h.evaluator, h.options, h.sink, rfl, h.standing⟩

theorem agrees_answer (h : c.Twin d) (call : NodeView) :
    Agrees True (Replies Twin) (c.answer call) (d.answer call) := by
  rw [answer, answer, h.context_eq]
  rcases h.standing_cases with ⟨b, b', hb, hb', htwin⟩ | ⟨cause, hc, hd⟩
  · rw [hb, hb']
    refine (Agrees.refl _).bind fun _ _ _ => ?_
    exact (htwin.agrees_dispatch c.context call).bind fun _ _ hr =>
      .pure ⟨hr.1, h.with_standing (.bound hr.2)⟩
  · rw [hc, hd]
    exact .pure ⟨by rw [h.typeName], h⟩

theorem agrees_invoke (h : c.Twin d) (call : NodeView) :
    Agrees True (Replies Twin) (c.invoke call) (d.invoke call) := by
  rw [invoke, invoke]
  refine (h.agrees_answer call).bind fun p q hr => ?_
  obtain ⟨result, c'⟩ := p
  obtain ⟨result', d'⟩ := q
  obtain ⟨rfl, htwin⟩ : result' = result ∧ c'.Twin d' := hr
  cases result' with
  | ok v => exact .pure ⟨rfl, htwin⟩
  | error e =>
    simp only [htwin.sink]
    exact (Agrees.refl _).bind fun _ _ _ => .pure ⟨rfl, htwin⟩

theorem agrees_exec (h : c.Twin d) (call : NodeView) :
    Agrees True (Replies Twin) (c.exec call) (d.exec call) := by
  rw [exec, exec]
  refine (h.agrees_invoke call).bind fun p q hr => ?_
  obtain ⟨result, c'⟩ := p
  obtain ⟨result', d'⟩ := q
  obtain ⟨rfl, htwin⟩ : result' = result ∧ c'.Twin d' := hr
  cases result' with
  | ok v => exact .pure ⟨rfl, htwin⟩
  | error e => exact .pure ⟨rfl, htwin⟩

theorem agrees_answer_closeCall (h : c.Twin d) :
    Agrees True (Replies Twin) (c.shut.answer c.closeCall) (d.shut.answer d.closeCall) := by
  rw [closeCall, closeCall, h.options]
  exact h.shut.agrees_answer _

theorem agrees_close (h : c.Twin d) : Agrees True Twin c.close d.close := by
  rw [close, close, h.closed]
  cases c.closed with
  | true => exact .pure h
  | false =>
    rw [if_neg Bool.false_ne_true, if_neg Bool.false_ne_true]
    change Agrees True Twin (if !c.shut.isBound then _ else _) (if !d.shut.isBound then _ else _)
    rw [h.shut.isBound_eq]
    cases c.shut.isBound with
    | false =>
      have hlog : Agrees True Eq
          (Traced.log .trace (c.typeName ++ ": close on unbound component ignored"))
          (Traced.log .trace (d.typeName ++ ": close on unbound component ignored")) := by
        rw [h.typeName]
        exact .refl _
      exact hlog.bind fun _ _ _ => .pure h.shut
    | true =>
      refine h.agrees_answer_closeCall.bind fun p q hr => ?_
      obtain ⟨result, c'⟩ := p
      obtain ⟨result', d'⟩ := q
      obtain ⟨rfl, htwin⟩ : result' = result ∧ c'.Twin d' := hr
      simp only [htwin.typeName, htwin.options, htwin.sink]
      cases result' with
      | ok v => exact (Agrees.refl _).bind fun _ _ _ => .pure htwin
      | error e => cases e <;> exact (Agrees.refl _).bind fun _ _ _ => .pure htwin

theorem agrees_perform (h : c.Twin d) (op : Operation) :
    Agrees True (Replies Twin) (c.perform op) (d.perform op) := by
  cases op with
  | invoke call =>
    exact (h.agrees_invoke call).bind fun _ _ hr => .pure ⟨by rw [hr.1], hr.2⟩
  | exec call =>
    exact (h.agrees_exec call).bind fun _ _ hr => .pure ⟨by rw [hr.1], hr.2⟩
  | close =>
    exact h.agrees_close.bind fun _ _ hr => .pure ⟨by rw [hr.closed], hr⟩

/-- Twins answer alike in every run, leave the same notes, and are twins afterwards. -/
theorem agrees_run (h : c.Twin d) (ops : List Operation) :
    Agrees True (Replies Twin) (c.run ops) (d.run ops) := by
  induction ops generalizing c d with
  | nil => exact .pure ⟨rfl, h⟩
  | cons op ops ih =>
    rw [run, run]
    refine (h.agrees_perform op).bind fun _ _ hr => ?_
    exact (ih hr.2).bind fun _ _ hrest => .pure ⟨by rw [hr.1, hrest.1], hrest.2⟩

end Component.Twin

namespace Component

/-- The component whose class has no constructors any more. -/
def barren (c : Component σ) : Component σ := { c with standing := c.standing.barren }

theorem twin_barren (c : Component σ) : c.Twin c.barren :=
  ⟨rfl, rfl, rfl, rfl, rfl, rfl, c.standing.twin_barren⟩

/-- A component that is built does not need constructors. -/
theorem agrees_run_barren (c : Component σ) (ops : List Operation) :
    Agrees True (Replies Twin) (c.run ops) (c.barren.run ops) := c.twin_barren.agrees_run ops

/-- The class of the instance, if there is one. -/
def owner? (c : Component σ) : Option (HostClass σ) := c.binding?.map Binding.owner

theorem owner?_withState (c : Component σ) (s : σ) : (c.withState s).owner? = c.owner? := by
  cases hs : c.standing with
  | unbound cause => rw [withState_of_unbound hs]
  | bound b =>
    rw [withState_of_bound hs, owner?, owner?, binding?, binding?, hs]
    rfl

variable {c : Component σ}

theorem owner?_answer (hc : c.Sound) (call : NodeView) :
    (c.answer call).value.2.owner? = c.owner? := by
  cases hs : c.standing with
  | unbound cause =>
    rw [answer, hs]
    rfl
  | bound b =>
    obtain ⟨d, hd⟩ := b.exists_decides c.context call
    rw [(answer_of_decides hc hs hd).1, owner?_withState]

theorem owner?_close (hc : c.Sound) : c.close.value.owner? = c.owner? := by
  cases ho : c.closed with
  | true =>
    rw [close_of_closed ho]
    rfl
  | false =>
    cases hs : c.standing with
    | unbound cause =>
      rw [(close_of_unbound hs ho).1]
      rfl
    | bound b =>
      rw [(close_of_bound hs ho).1, owner?_answer hc.shut]
      rfl

theorem owner?_perform (hc : c.Sound) (op : Operation) :
    (c.perform op).value.2.owner? = c.owner? := by
  cases op with
  | invoke call =>
    rw [component_perform_invoke, (c.invoke_eq_answer call).1, owner?_answer hc]
  | exec call =>
    rw [component_perform_exec, (c.exec_eq_invoke call).1, (c.invoke_eq_answer call).1,
      owner?_answer hc]
  | close => exact owner?_close hc

theorem owner?_run (hc : c.Sound) (ops : List Operation) :
    (c.run ops).value.2.owner? = c.owner? := by
  induction ops generalizing c with
  | nil => rfl
  | cons op ops ih => exact (ih (hc.perform op)).trans (owner?_perform hc op)

/-- Without an instance nothing is done but to report. -/
theorem invoke_of_unbound {cause : BindError} (hs : c.standing = .unbound cause)
    (call : NodeView) :
    c.invoke call = do
      c.sink.report (CallError.unusable c.typeName cause).diagnostic
      return (.error (.unusable c.typeName cause), c) := by
  rw [invoke, answer, hs]
  rfl

theorem exec_of_unbound {cause : BindError} (hs : c.standing = .unbound cause)
    (call : NodeView) :
    c.exec call = do
      c.sink.report (CallError.unusable c.typeName cause).diagnostic
      return (.text (CallError.unusable c.typeName cause).message, c) := by
  rw [exec, invoke_of_unbound hs]
  refine Agrees.eq ⟨rfl, fun _ => ?_⟩
  simp only [Traced.notes_bind, Traced.notes_pure, Traced.value_bind, Traced.value_pure,
    List.append_nil]

theorem cause?_eq_some_iff {cause : BindError} :
    c.cause? = some cause ↔ c.standing = .unbound cause := by
  rw [cause?]
  cases c.standing with
  | bound b => simp
  | unbound e => simp

theorem seen_close_of_unbound {cause : BindError} (hc : c.cause? = some cause) :
    c.close.seen = [] := by
  cases ho : c.closed with
  | true =>
    rw [close_of_closed ho]
    rfl
  | false => exact (close_of_unbound (cause?_eq_some_iff.mp hc) ho).2

theorem seen_drop_of_unbound {cause : BindError} (hc : c.cause? = some cause) :
    c.drop.seen = [] := by
  rw [drop]
  split
  · exact seen_close_of_unbound hc
  · rfl

theorem seen_perform_of_unbound {cause : BindError} (hc : c.cause? = some cause)
    (op : Operation) : (c.perform op).seen = [] := by
  have hs := cause?_eq_some_iff.mp hc
  cases op with
  | invoke call =>
    rw [perform, invoke_of_unbound hs]
    simp
  | exec call =>
    rw [perform, exec_of_unbound hs]
    simp
  | close =>
    rw [perform, Traced.seen_bind, seen_close_of_unbound hc]
    rfl

/-- Without an instance others see nothing of a run: no code of a class and no evaluator runs. -/
theorem seen_run_of_unbound {cause : BindError} (hc : c.cause? = some cause)
    (ops : List Operation) : (c.run ops).seen = [] := by
  induction ops generalizing c with
  | nil => rfl
  | cons op ops ih =>
    have hnext : (c.perform op).value.2.cause? = some cause := by
      rw [(c.kin_perform op).cause?_eq, hc]
    rw [Traced.seen, (c.run_cons op ops).2, List.filterMap_append]
    exact List.append_eq_nil_iff.mpr ⟨seen_perform_of_unbound hc op, ih hnext⟩

end Component

end HostCall
