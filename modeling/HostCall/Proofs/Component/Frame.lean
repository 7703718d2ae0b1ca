import HostCall.Proofs.Component.Answer

/-!
# What calls leave behind

A call changes nothing of a component but the state of its instance, and that only by running a
method: one method, once, on the state as it is and on the values of the children in their order.
So calls one after the other lead to the state that their methods lead to one after the other.
-/

namespace HostCall

variable {σ : Type}

namespace Method

/-- The state that methods lead to, run one after the other on their arguments. -/
def runAll (s : σ) (runs : List (Method σ × List Value)) : σ :=
  runs.foldl (fun s run => (run.1.body s run.2).2) s

theorem runAll_append (s : σ) (first rest : List (Method σ × List Value)) :
    runAll s (first ++ rest) = runAll (runAll s first) rest := by
  rw [runAll, List.foldl_append]
  rfl

end Method

namespace Operation

/-- The call that an operation makes. -/
def call? : Operation → Option NodeView
  | invoke call | exec call => some call
  | close => none

end Operation

namespace Binding

/-- The method that a call runs and the arguments that it runs on. Both are settled by the tables
and the arguments, whatever the state of the instance is. -/
def handler? (b : Binding σ) (ctx : CallContext) (call : NodeView) :
    Option (Method σ × List Value) :=
  match b.fieldFor? ctx.options call with
  | some _ => none
  | none =>
    match (Arguments.ofCall call ctx.evaluator ctx.options.maxArgs).value with
    | .error _ => none
    | .ok args =>
      (Method.select ctx.hierarchy b.methods call.name args.types).map fun (m, _) =>
        (m, args.values)

/-- The methods that the calls among operations run, in the order of the calls. -/
def handlers (b : Binding σ) (ctx : CallContext) (ops : List Operation) :
    List (Method σ × List Value) :=
  (ops.filterMap Operation.call?).filterMap (b.handler? ctx)

section

variable {b : Binding σ} {ctx : CallContext} {call : NodeView}

theorem handler?_of_decides (hb : b.Sound) {d : Decision σ} (h : b.Decides ctx call d) :
    b.handler? ctx call = d.handler? := by
  rw [handler?]
  cases h with
  | field answers =>
    rw [(fieldFor?_eq_some_iff hb).mpr answers]
    rfl
  | tooMany unread exceeds =>
    rw [fieldFor?_eq_none hb unread]
    simp only [(Arguments.ofCall_of_exceeds exceeds ctx.evaluator).1]
    rfl
  | panicked unread within panics =>
    rw [fieldFor?_eq_none hb unread]
    simp only [(Arguments.ofCall_of_panicsFirst within panics).1]
    rfl
  | unmatched ready untaken =>
    obtain ⟨unread, within, yields⟩ := ready
    rw [fieldFor?_eq_none hb unread, hb.methods_eq]
    simp only [(Arguments.ofCall_of_yields within yields).1, Arguments.types,
      Method.select_eq_none_iff.mpr untaken]
    rfl
  | method resolves =>
    obtain ⟨⟨unread, within, yields⟩, fit, chosen⟩ := resolves
    rw [fieldFor?_eq_none hb unread, hb.methods_eq]
    simp only [(Arguments.ofCall_of_yields within yields).1, Arguments.types,
      Method.select_eq_some_iff.mpr chosen]
    rfl

theorem handler?_eq_some_iff (hb : b.Sound) {m : Method σ} {values : List Value} :
    b.handler? ctx call = some (m, values) ↔ b.Resolves ctx call m values := by
  constructor
  · intro h
    obtain ⟨d, hd⟩ := b.exists_decides ctx call
    rw [handler?_of_decides hb hd] at h
    cases hd with
    | method resolves =>
      cases h
      exact resolves
    | _ => cases h
  · intro h
    exact handler?_of_decides hb (.method h)

theorem handlers_withState (b : Binding σ) (s : σ) (ops : List Operation) :
    (b.withState s).handlers ctx ops = b.handlers ctx ops := rfl

theorem handlers_cons (b : Binding σ) {op : Operation} (ho : op.call? = some call)
    (ops : List Operation) :
    b.handlers ctx (op :: ops) = (b.handler? ctx call).toList ++ b.handlers ctx ops := by
  rw [handlers, List.filterMap_cons_some ho, List.filterMap_cons]
  cases b.handler? ctx call with
  | none => rfl
  | some run => rfl

/-- The state after a call is the one that the method of the call leads to, if it runs one. -/
theorem state_of_decides (hb : b.Sound) {d : Decision σ} (h : b.Decides ctx call d) :
    d.state b = Method.runAll b.receiver.state (b.handler? ctx call).toList := by
  rw [handler?_of_decides hb h]
  cases d <;> rfl

end

end Binding

namespace Component

section

variable {c : Component σ} {b : Binding σ}

/-- What a call may change, and what runs in which case. -/
structure Atomic (c : Component σ) (b : Binding σ) (call : NodeView) : Prop where
  frame : ∃ s, (c.invoke call).value.2 = c.withState s
  exec_eq : (c.exec call).value.2 = (c.invoke call).value.2 ∧
    (c.exec call).seen = (c.invoke call).seen
  /-- Only the field runs. -/
  field : ∀ f, b.FieldAnswers c.context call f →
    (c.invoke call).value.2 = c ∧ (c.invoke call).seen = (f.read b.receiver.state).events
  /-- No member runs, only the evaluation of some first children. -/
  refused : ∀ e, (c.invoke call).value.1 = .error e →
    e.kind = .argumentLimit ∨ e.kind = .evaluation ∨ e.kind = .resolution →
    (c.invoke call).value.2 = c ∧
      ∃ n, (c.invoke call).seen = c.evaluator.seen (call.children.take n)
  /-- The method runs once, on the values of the children, after their evaluation. -/
  resolved : ∀ m values, b.Resolves c.context call m values →
    c.evaluator.Yields call.children values ∧
      (c.invoke call).value.1 = b.methodReply m values ∧
      (c.invoke call).value.2 = c.withState (m.body b.receiver.state values).2 ∧
      (c.invoke call).seen =
        c.evaluator.seen call.children ++ (m.body b.receiver.state values).1.events
  /-- One of the cases applies to every call. -/
  complete : (∃ f, b.FieldAnswers c.context call f) ∨
    (∃ e, (c.invoke call).value.1 = .error e ∧
      (e.kind = .argumentLimit ∨ e.kind = .evaluation ∨ e.kind = .resolution)) ∨
    ∃ m values, b.Resolves c.context call m values

theorem atomic_of_bound (hc : c.Sound) (hb : c.standing = .bound b) (call : NodeView) :
    c.Atomic b call where
  frame := by
    obtain ⟨d, hd⟩ := b.exists_decides c.context call
    exact ⟨d.state b, congrArg Prod.snd (invoke_of_decides hc hb hd).1⟩
  exec_eq := c.exec_eq_invoke call
  field f hf := by
    obtain ⟨hvalue, hseen⟩ := invoke_of_decides hc hb (.field hf)
    refine ⟨?_, hseen⟩
    rw [hvalue]
    exact withState_self hb
  refused e he hk := by
    obtain ⟨d, hd, hr⟩ := exists_decides_of_reply hc hb he
    obtain ⟨hvalue, hseen⟩ := invoke_of_decides hc hb hd
    rw [hvalue, hseen]
    cases hd with
    | field answers => simp [Binding.kind_of_fieldReply hr] at hk
    | method resolves => simp [Binding.kind_of_methodReply hr] at hk
    | tooMany unread exceeds => exact ⟨withState_self hb, 0, rfl⟩
    | @panicked index p unread within panics => exact ⟨withState_self hb, index + 1, rfl⟩
    | unmatched ready untaken =>
      exact ⟨withState_self hb, call.children.length, by rw [List.take_length]; rfl⟩
  resolved m values hr := by
    obtain ⟨hvalue, hseen⟩ := invoke_of_decides hc hb (.method hr)
    rw [hvalue, hseen]
    exact ⟨hr.1.2.2, rfl, rfl, rfl⟩
  complete := by
    obtain ⟨d, hd⟩ := b.exists_decides c.context call
    have hreply := congrArg Prod.fst (invoke_of_decides hc hb hd).1
    cases hd with
    | field answers => exact .inl ⟨_, answers⟩
    | tooMany unread exceeds => exact .inr (.inl ⟨_, hreply, .inl rfl⟩)
    | panicked unread within panics => exact .inr (.inl ⟨_, hreply, .inr (.inl rfl)⟩)
    | unmatched ready untaken => exact .inr (.inl ⟨_, hreply, .inr (.inr rfl)⟩)
    | method resolves => exact .inr (.inr ⟨_, _, resolves⟩)

/-- The component after a call: the method of the call, if there is one, ran on its state. -/
theorem invoke_component (hc : c.Sound) (hb : c.standing = .bound b) (call : NodeView) :
    (c.invoke call).value.2 =
      c.withState (Method.runAll b.receiver.state (b.handler? c.context call).toList) := by
  obtain ⟨d, hd⟩ := b.exists_decides c.context call
  rw [(invoke_of_decides hc hb hd).1, ← Binding.state_of_decides (hc b hb) hd]

private theorem perform_component (hc : c.Sound) (hb : c.standing = .bound b) {op : Operation}
    {call : NodeView} (ho : op.call? = some call) :
    (c.perform op).value.2 =
      c.withState (Method.runAll b.receiver.state (b.handler? c.context call).toList) := by
  rw [← invoke_component hc hb call]
  cases op with
  | invoke call' =>
    cases ho
    rw [component_perform_invoke]
  | exec call' =>
    cases ho
    rw [component_perform_exec, (c.exec_eq_invoke call).1]
  | close => cases ho

private theorem exists_call {op : Operation} (ho : op ≠ .close) :
    ∃ call, op.call? = some call := by
  cases op with
  | invoke call => exact ⟨call, rfl⟩
  | exec call => exact ⟨call, rfl⟩
  | close => exact absurd rfl ho

/-- The component after a run of calls: the methods of the calls ran one after the other. -/
theorem run_component (hc : c.Sound) (hb : c.standing = .bound b) {ops : List Operation}
    (ho : Operation.close ∉ ops) :
    (c.run ops).value.2 =
      c.withState (Method.runAll b.receiver.state (b.handlers c.context ops)) := by
  induction ops generalizing c b with
  | nil => exact (withState_self hb).symm
  | cons op ops ih =>
    rw [List.mem_cons, not_or] at ho
    obtain ⟨call, hcall⟩ := exists_call (Ne.symm ho.1)
    have hstep := perform_component hc hb hcall
    -- the methods of the calls behind the first one depend on the tables only
    generalize hs : Method.runAll b.receiver.state (b.handler? c.context call).toList = s at hstep
    have hrest := ih (hc.withState s) (standing_withState hb s) ho.2
    rw [component_run_cons, hstep, hrest, context_withState, Binding.handlers_withState,
      Binding.withState_state, withState_withState, b.handlers_cons hcall, Method.runAll_append,
      hs]

end

/-- Calls on a component that is bound leave all of it as it was but the state of its instance,
and this is the one that the methods of the calls that resolved lead to, in the order of the
calls. -/
theorem calls_atomic {c : Component σ} (hc : c.Reachable) {b : Binding σ}
    (hb : c.standing = .bound b) :
    (∀ call, c.Atomic b call) ∧
      (∀ call m values, b.handler? c.context call = some (m, values) ↔
        b.Resolves c.context call m values) ∧
      ∀ ops, Operation.close ∉ ops →
        (c.run ops).value.2 =
          c.withState (Method.runAll b.receiver.state (b.handlers c.context ops)) := by
  refine ⟨?_, ?_, ?_⟩
  · intro call
    exact atomic_of_bound hc.sound hb call
  · intro call m values
    exact Binding.handler?_eq_some_iff (hc.sound b hb)
  · intro ops ho
    exact run_component hc.sound hb ho

end Component

/-- Of three calls the first two run methods, one of which panics; the third reads a field. -/
theorem tally_calls_atomic :
    let ops : List Operation := [.invoke (Graph.node "raise" [.leaf "1"]).view,
      .exec (Graph.leaf "fail").view, .invoke (Graph.leaf "count").view]
    Tally.component.Reachable ∧ Tally.component.standing = .bound Tally.binding ∧
      Operation.close ∉ ops ∧
      (Tally.component.run ops).value.2 = Tally.component.withState 3 := by
  intro ops
  have ho : Operation.close ∉ ops := by simp [ops]
  have hstate : Method.runAll 0 (Tally.binding.handlers Tally.component.context ops) = 3 := by
    decide +kernel
  obtain ⟨-, -, hrun⟩ :=
    Component.calls_atomic Tally.reachable_component Tally.standing_component
  refine ⟨Tally.reachable_component, Tally.standing_component, ho, ?_⟩
  rw [← hstate]
  exact hrun ops ho

end HostCall
