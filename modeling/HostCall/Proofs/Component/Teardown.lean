import HostCall.Proofs.Component.Frame

/-!
# Closing and the close method

A bound component that is still open closes by a call without arguments. If its class has the
close method without parameters, the call runs it once, whatever else the class has, except where
a field of the same name is read in its place. What has been closed is never closed again.
-/

namespace HostCall

variable {σ : Type}

namespace Binding

/-- The class has a close method without parameters. -/
def Declares (b : Binding σ) (o : Options) (m : Method σ) : Prop :=
  m ∈ b.owner.methods ∧ m.name = o.closeMethod ∧ m.params = []

/-- A field that calls read bears the name of the close method. -/
def Shadows (b : Binding σ) (o : Options) (f : Field σ) : Prop :=
  o.fieldAccess = true ∧ f ∈ b.owner.fields ∧ f.name = o.closeMethod

end Binding

namespace Component

section Call

variable {c : Component σ} {b : Binding σ}

theorem fieldAnswers_closeCall_iff {f : Field σ} :
    b.FieldAnswers c.context c.closeCall f ↔ b.Shadows c.options f := by
  constructor
  · intro hcond
    obtain ⟨hon, -, hf, hn⟩ := hcond
    exact ⟨hon, hf, hn⟩
  · intro hcond
    obtain ⟨hon, hf, hn⟩ := hcond
    exact ⟨hon, rfl, hf, hn⟩

theorem resolves_closeCall {m : Method σ} (hm : b.Declares c.options m)
    (hs : ∀ f, ¬ b.Shadows c.options f) : b.Resolves c.context c.closeCall m [] := by
  obtain ⟨hmem, hname, hparams⟩ := hm
  have hunread : b.Unread c.context c.closeCall := fun f hf =>
    hs f (fieldAnswers_closeCall_iff.mp hf)
  have hwithin : c.closeCall.Within c.options.maxArgs := by
    intro max hcond
    obtain ⟨-, hlt⟩ := hcond
    exact Nat.not_lt_zero max hlt
  have hchosen := Method.chosen_of_mem b.owner.methods_distinct hmem c.context.hierarchy
  rw [hname, hparams] at hchosen
  exact ⟨⟨hunread, hwithin, .nil⟩, .exact, hchosen⟩

/-- Closing an open component answers what belongs to the end of the closing call. -/
theorem close_of_decides (hc : c.Sound) (hb : c.standing = .bound b) (ho : c.closed = false)
    {d : Decision σ} (h : b.Decides c.context c.closeCall d) :
    c.close.value = c.shut.withState (d.state b) ∧
      c.close.seen = d.seen b c.evaluator c.closeCall := by
  obtain ⟨hvalue, hseen⟩ := answer_of_decides (c := c.shut) hc.shut hb h
  rw [(close_of_bound hb ho).1, (close_of_bound hb ho).2, hvalue, hseen]
  exact ⟨rfl, rfl⟩

theorem close_of_declares (hc : c.Sound) (hb : c.standing = .bound b) (ho : c.closed = false)
    {m : Method σ} (hm : b.Declares c.options m) (hs : ∀ f, ¬ b.Shadows c.options f) :
    c.close.value = c.shut.withState (m.body b.receiver.state []).2 ∧
      c.close.seen = (m.body b.receiver.state []).1.events :=
  close_of_decides hc hb ho (.method (resolves_closeCall hm hs))

theorem close_of_shadows (hc : c.Sound) (hb : c.standing = .bound b) (ho : c.closed = false)
    {f : Field σ} (hf : b.Shadows c.options f) :
    c.close.value = c.shut ∧ c.close.seen = (f.read b.receiver.state).events := by
  obtain ⟨hvalue, hseen⟩ :=
    close_of_decides hc hb ho (.field (fieldAnswers_closeCall_iff.mpr hf))
  refine ⟨?_, hseen⟩
  rw [hvalue]
  exact withState_self (c := c.shut) hb

end Call

theorem closed_answer (c : Component σ) (call : NodeView) :
    (c.answer call).value.2.closed = c.closed := by
  rw [answer]
  cases c.standing with
  | bound b => rfl
  | unbound cause => rfl

theorem closed_close (c : Component σ) : c.close.value.closed = true := by
  cases ho : c.closed with
  | true =>
    rw [close_of_closed ho]
    exact ho
  | false =>
    cases hs : c.standing with
    | unbound cause =>
      rw [(close_of_unbound hs ho).1]
      rfl
    | bound b =>
      rw [(close_of_bound hs ho).1]
      exact closed_answer c.shut c.closeCall

/-- An operation leaves a component closed if it was so before, or if it is the closing. -/
theorem closed_perform (c : Component σ) (op : Operation) :
    (c.perform op).value.2.closed = true ↔ c.closed = true ∨ op = .close := by
  cases op with
  | invoke call =>
    rw [component_perform_invoke, (c.invoke_eq_answer call).1, closed_answer]
    simp
  | exec call =>
    rw [component_perform_exec, (c.exec_eq_invoke call).1, (c.invoke_eq_answer call).1,
      closed_answer]
    simp
  | close => simp [closed_close]

theorem closed_run (c : Component σ) (ops : List Operation) :
    (c.run ops).value.2.closed = true ↔ c.closed = true ∨ Operation.close ∈ ops := by
  induction ops generalizing c with
  | nil => simp
  | cons op ops ih =>
    rw [component_run_cons, ih, closed_perform, List.mem_cons, or_assoc, eq_comm (a := op)]

theorem closed_build (p : Blueprint σ) : p.build.value.closed = false := by
  rw [Blueprint.build, Traced.value_bind]
  cases p.bind.value with
  | ok b => rfl
  | error e => rfl

/-- What closing and dropping do to an open component whose class has the close method. -/
structure Teardown (c : Component σ) (b : Binding σ) (m : Method σ) : Prop where
  /-- The close method runs once, on the state as it is. -/
  reached : (∀ f, ¬ b.Shadows c.options f) →
    c.close.value = c.shut.withState (m.body b.receiver.state []).2 ∧
      c.close.seen = (m.body b.receiver.state []).1.events
  /-- The close method does not run: a field is read in its place. -/
  missed : ∀ f, b.Shadows c.options f →
    c.close.value = c.shut ∧ c.close.seen = (f.read b.receiver.state).events
  dropped : c.options.closeOnDrop = true → c.drop = c.close
  kept : c.options.closeOnDrop = false → c.drop = pure c
  /-- Whatever is done after the closing, no closing or dropping does anything again. -/
  once : ∀ after d, d = (c.close.value.run after).value.2 → d.close = pure d ∧ d.drop = pure d

theorem drop_of_closed {c : Component σ} (h : c.closed = true) : c.drop = pure c := by
  rw [drop, close_of_closed h, ite_self]

/-- For every component that was not closed yet, the first closing runs the close method of its
class once and no later one runs it again, exactly where no field shadows that method. -/
theorem close_teardown (p : Blueprint σ) {before : List Operation}
    (hn : Operation.close ∉ before) {c : Component σ} (hc : c = (p.build.value.run before).value.2)
    {b : Binding σ} (hb : c.standing = .bound b) {m : Method σ} (hm : b.Declares c.options m) :
    c.Teardown b m := by
  have hsound : c.Sound := by
    rw [hc]
    exact ((Reachable.build p).run before).sound
  -- only closing sets the mark, and the run so far has none
  have hopen : c.closed = false := by
    rw [hc, ← Bool.not_eq_true, closed_run, closed_build]
    simp [hn]
  refine ⟨?_, ?_, ?_, ?_, ?_⟩
  · intro hs
    exact close_of_declares hsound hb hopen hm hs
  · intro f hf
    exact close_of_shadows hsound hb hopen hf
  · intro hd
    rw [drop, if_pos hd]
  · intro hd
    rw [drop, if_neg (by simp [hd])]
  · intro after d hd
    have hclosed : d.closed = true := by
      rw [hd]
      exact (closed_run _ after).mpr (.inl c.closed_close)
    exact ⟨close_of_closed hclosed, drop_of_closed hclosed⟩

end Component

namespace Latch

/-- The method that releases a latch. -/
def release : Method Bool :=
  .typed0 "close" fun _ => ({ outcome := .returned .null, events := ["released"] }, true)

/-- A field that bears the name of the method. -/
def closeField : Field Bool := { name := "close", read := fun s => { answer := .ok (.bool s) } }

/-- A class whose instances know whether they were released, with the field or without it. -/
def hostClass (shadowed : Bool) : HostClass Bool where
  name := "demo.Latch"
  native := "Latch"
  constructors := [.plain { outcome := .returned false }]
  fields := if shadowed then [closeField] else []
  methods := [release]
  constructors_distinct := by decide
  fields_distinct := by cases shadowed <;> decide
  methods_distinct := by decide

def blueprint (shadowed : Bool) : Blueprint Bool :=
  { registry := Registry.empty.insert (hostClass shadowed), typeName := "demo.Latch" }

def binding (shadowed : Bool) : Binding Bool :=
  .ofInstance (hostClass shadowed) { native := "Latch", state := false }

theorem standing_build (shadowed : Bool) :
    (blueprint shadowed).build.value.standing = .bound (binding shadowed) := by
  have hr : (blueprint shadowed).registry.get? "demo.Latch" = some (hostClass shadowed) :=
    Std.TreeMap.getElem?_insert_self
  have hv : ({} : Options).isValid = true := by decide
  rw [Component.build_of_plain hv hr rfl rfl rfl]
  rfl

theorem declares_release (shadowed : Bool) :
    (binding shadowed).Declares (blueprint shadowed).options release :=
  ⟨List.mem_singleton.mpr rfl, rfl, rfl⟩

end Latch

/-- A latch without the field is released by the first closing only. -/
theorem latch_close_teardown :
    let c := (Latch.blueprint false).build.value
    c.standing = .bound (Latch.binding false) ∧ c.close.seen = ["released"] ∧
      c.close.value = c.shut.withState true ∧ c.close.value.drop = pure c.close.value := by
  intro c
  have hrun : c = ((Latch.blueprint false).build.value.run []).value.2 := rfl
  have h := Component.close_teardown (Latch.blueprint false) List.not_mem_nil hrun
    (Latch.standing_build false) (Latch.declares_release false)
  have hs : ∀ f, ¬ (Latch.binding false).Shadows c.options f := fun f hf =>
    List.not_mem_nil hf.2.1
  obtain ⟨hvalue, hseen⟩ := h.reached hs
  exact ⟨Latch.standing_build false, hseen, hvalue, (h.once [] _ rfl).2⟩

/-- A latch with the field is closed without being released. -/
theorem shadowed_latch_not_released :
    let c := (Latch.blueprint true).build.value
    c.Reachable ∧ c.closed = false ∧ c.standing = .bound (Latch.binding true) ∧
      (Latch.binding true).Declares c.options Latch.release ∧
      (Latch.release.body false []).1.events = ["released"] ∧
      c.close.seen = [] ∧ c.close.value = c.shut ∧ c.drop = c.close := by
  intro c
  have hc : c.Reachable := .build _
  have hopen : c.closed = false := Component.closed_build _
  have hf : (Latch.binding true).Shadows c.options Latch.closeField :=
    ⟨rfl, List.mem_singleton.mpr rfl, rfl⟩
  obtain ⟨hvalue, hseen⟩ :=
    Component.close_of_shadows hc.sound (Latch.standing_build true) hopen hf
  have hdrop : c.drop = c.close := if_pos rfl
  exact ⟨hc, hopen, Latch.standing_build true, Latch.declares_release true, rfl, hseen, hvalue,
    hdrop⟩

end HostCall
