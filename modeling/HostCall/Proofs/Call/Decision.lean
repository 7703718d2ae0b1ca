import HostCall.Proofs.Binding.Sound
import HostCall.Proofs.Call.Evaluation
import HostCall.Proofs.Call.Selection

/-!
# What becomes of a call

A call on a sound binding comes to one of five ends: a field answers it, it claims too many
arguments, the evaluation of an argument panics, no method takes its arguments, or a method runs.
Each end has its conditions, those of the ends before it being excluded, and dispatch answers what
belongs to the end that applies.
-/

namespace HostCall

variable {σ : Type}

/-- An end that a call can come to. -/
inductive Decision (σ : Type) where
  | field (f : Field σ)
  | tooMany (max : Nat)
  | panicked (index : Nat) (p : Panic)
  | unmatched (values : List Value)
  | method (m : Method σ) (values : List Value)

namespace Decision

/-- What a call that comes to an end answers. -/
def reply (b : Binding σ) (call : NodeView) : Decision σ → Except CallError Value
  | field f => b.fieldReply f
  | tooMany max => .error (.tooManyArguments call.name call.claimed max)
  | panicked index p => .error (.evaluation call.name index p.error)
  | unmatched values =>
    .error (.noSuchMethod call.name (values.map Value.callType) b.owner.name)
  | method m values => b.methodReply m values

/-- The state of the instance afterwards. -/
def state (b : Binding σ) : Decision σ → σ
  | method m values => (m.body b.receiver.state values).2
  | _ => b.receiver.state

/-- What others see of it. -/
def seen (b : Binding σ) (evaluator : Evaluator) (call : NodeView) : Decision σ → List String
  | field f => (f.read b.receiver.state).events
  | tooMany _ => []
  | panicked index _ => evaluator.seen (call.children.take (index + 1))
  | unmatched _ => evaluator.seen call.children
  | method m values =>
    evaluator.seen call.children ++ (m.body b.receiver.state values).1.events

/-- The method that runs, and its arguments. -/
def handler? : Decision σ → Option (Method σ × List Value)
  | method m values => some (m, values)
  | _ => none

end Decision

theorem Binding.kind_of_fieldReply {b : Binding σ} {f : Field σ} {e : CallError}
    (h : b.fieldReply f = .error e) : e.kind = .invocation := by
  rw [fieldReply] at h
  cases hr : (f.read b.receiver.state).contain with
  | ok v =>
    rw [hr] at h
    cases h
  | error cause =>
    rw [hr] at h
    cases h
    rfl

theorem Binding.kind_of_methodReply {b : Binding σ} {m : Method σ} {values : List Value}
    {e : CallError} (h : b.methodReply m values = .error e) : e.kind = .invocation := by
  rw [methodReply] at h
  cases hr : (m.body b.receiver.state values).1.outcome.contain with
  | ok v =>
    rw [hr] at h
    cases h
  | error cause =>
    rw [hr] at h
    cases h
    rfl

namespace Decision

variable {b : Binding σ} {call : NodeView} {d : Decision σ}

theorem eq_tooMany_of_reply {name : String} {given max : Nat}
    (h : d.reply b call = .error (.tooManyArguments name given max)) :
    d = .tooMany max ∧ name = call.name ∧ given = call.claimed := by
  cases d with
  | field f => cases Binding.kind_of_fieldReply h
  | method m values => cases Binding.kind_of_methodReply h
  | tooMany max =>
    cases h
    exact ⟨rfl, rfl, rfl⟩
  | panicked index p => cases h
  | unmatched values => cases h

theorem eq_panicked_of_reply {name : String} {index : Nat} {e : HostError}
    (h : d.reply b call = .error (.evaluation name index e)) :
    ∃ p, d = .panicked index p ∧ name = call.name ∧ e = p.error := by
  cases d with
  | field f => cases Binding.kind_of_fieldReply h
  | method m values => cases Binding.kind_of_methodReply h
  | tooMany max => cases h
  | panicked index p =>
    cases h
    exact ⟨p, rfl, rfl, rfl⟩
  | unmatched values => cases h

theorem eq_unmatched_of_reply {name : String} {types : List CallType} {className : String}
    (h : d.reply b call = .error (.noSuchMethod name types className)) :
    ∃ values, d = .unmatched values ∧ name = call.name ∧ className = b.owner.name ∧
      types = values.map Value.callType := by
  cases d with
  | field f => cases Binding.kind_of_fieldReply h
  | method m values => cases Binding.kind_of_methodReply h
  | tooMany max => cases h
  | panicked index p => cases h
  | unmatched values =>
    cases h
    exact ⟨values, rfl, rfl, rfl, rfl⟩

end Decision

namespace Binding

/-- A field answers a call: fields may be read by calls, the call claims no arguments, and the
class has a field of its name. -/
def FieldAnswers (b : Binding σ) (ctx : CallContext) (call : NodeView) (f : Field σ) : Prop :=
  ctx.options.fieldAccess = true ∧ call.claimed = 0 ∧ f ∈ b.owner.fields ∧ f.name = call.name

/-- No field answers a call. -/
def Unread (b : Binding σ) (ctx : CallContext) (call : NodeView) : Prop :=
  ∀ f, ¬ b.FieldAnswers ctx call f

/-- A call gets as far as having the values of its arguments. -/
def Ready (b : Binding σ) (ctx : CallContext) (call : NodeView) (values : List Value) : Prop :=
  b.Unread ctx call ∧ call.Within ctx.options.maxArgs ∧
    ctx.evaluator.Yields call.children values

/-- A call runs a method on its arguments. -/
def Resolves (b : Binding σ) (ctx : CallContext) (call : NodeView) (m : Method σ)
    (values : List Value) : Prop :=
  b.Ready ctx call values ∧ ∃ fit, Method.Chosen ctx.hierarchy b.owner.methods call.name
    (values.map Value.callType) m fit

/-- The ends of calls and their conditions. -/
inductive Decides (b : Binding σ) (ctx : CallContext) (call : NodeView) : Decision σ → Prop
  | field {f : Field σ} (answers : b.FieldAnswers ctx call f) : Decides b ctx call (.field f)
  | tooMany {max : Nat} (unread : b.Unread ctx call)
      (exceeds : call.Exceeds ctx.options.maxArgs max) : Decides b ctx call (.tooMany max)
  | panicked {index : Nat} {p : Panic} (unread : b.Unread ctx call)
      (within : call.Within ctx.options.maxArgs)
      (panics : ctx.evaluator.PanicsFirst call.children index p) :
      Decides b ctx call (.panicked index p)
  | unmatched {values : List Value} (ready : b.Ready ctx call values)
      (untaken : ∀ m ∈ b.owner.methods,
        ¬ m.Takes ctx.hierarchy call.name (values.map Value.callType)) :
      Decides b ctx call (.unmatched values)
  | method {m : Method σ} {values : List Value} (resolves : b.Resolves ctx call m values) :
      Decides b ctx call (.method m values)

/-- Every call comes to an end. -/
theorem exists_decides (b : Binding σ) (ctx : CallContext) (call : NodeView) :
    ∃ d, b.Decides ctx call d := by
  -- the guards in the order in which dispatch looks at them
  by_cases hf : ∃ f, b.FieldAnswers ctx call f
  · obtain ⟨f, hf⟩ := hf
    exact ⟨_, .field hf⟩
  have hu : b.Unread ctx call := fun f h => hf ⟨f, h⟩
  by_cases hm : ∃ max, call.Exceeds ctx.options.maxArgs max
  · obtain ⟨max, hm⟩ := hm
    exact ⟨_, .tooMany hu hm⟩
  have hw : call.Within ctx.options.maxArgs := fun max h => hm ⟨max, h⟩
  rcases ctx.evaluator.yields_or_panicsFirst call.children with ⟨values, hv⟩ | ⟨i, p, hp⟩
  · cases hs : Method.select ctx.hierarchy b.owner.methods call.name
        (values.map Value.callType) with
    | none => exact ⟨_, .unmatched ⟨hu, hw, hv⟩ (Method.select_eq_none_iff.mp hs)⟩
    | some choice =>
      obtain ⟨m, fit⟩ := choice
      exact ⟨_, .method ⟨⟨hu, hw, hv⟩, fit, Method.select_eq_some_iff.mp hs⟩⟩
  · exact ⟨_, .panicked hu hw hp⟩

section Dispatch

variable {b : Binding σ} {ctx : CallContext} {call : NodeView}

theorem fieldFor?_eq_some_iff (hb : b.Sound) {f : Field σ} :
    b.fieldFor? ctx.options call = some f ↔ b.FieldAnswers ctx call f := by
  rw [fieldFor?, hb.fields_eq, FieldAnswers, NodeView.isEmpty]
  by_cases h : ctx.options.fieldAccess = true ∧ call.claimed = 0
  · simp only [h.1, h.2, beq_self_eq_true, Bool.and_self, ↓reduceIte, true_and]
    exact FieldTable.get?_ofList_eq_some_iff b.owner.fields_distinct
  · rw [if_neg (by simpa using h)]
    simp only [reduceCtorEq, false_iff]
    exact fun hf => h ⟨hf.1, hf.2.1⟩

theorem fieldFor?_eq_none (hb : b.Sound) (hu : b.Unread ctx call) :
    b.fieldFor? ctx.options call = none :=
  Option.eq_none_iff_forall_ne_some.mpr fun f hf => hu f ((fieldFor?_eq_some_iff hb).mp hf)

private theorem dispatchMethod_of_error {e : CallError}
    (h : (Arguments.ofCall call ctx.evaluator ctx.options.maxArgs).value = .error e) :
    (b.dispatchMethod ctx call).value = (.error e, b) ∧
      (b.dispatchMethod ctx call).seen =
        (Arguments.ofCall call ctx.evaluator ctx.options.maxArgs).seen := by
  rw [dispatchMethod]
  simp only [Traced.value_bind, Traced.seen_bind, h, Traced.value_pure, Traced.seen_pure,
    List.append_nil, and_self]

private theorem dispatchMethod_of_none (hb : b.Sound) {values : List Value}
    (hv : (Arguments.ofCall call ctx.evaluator ctx.options.maxArgs).value = .ok ⟨values⟩)
    (hs : Method.select ctx.hierarchy b.owner.methods call.name (values.map Value.callType) =
      none) :
    (b.dispatchMethod ctx call).value =
        (.error (.noSuchMethod call.name (values.map Value.callType) b.owner.name), b) ∧
      (b.dispatchMethod ctx call).seen =
        (Arguments.ofCall call ctx.evaluator ctx.options.maxArgs).seen := by
  rw [dispatchMethod, hb.methods_eq]
  simp only [Traced.value_bind, Traced.seen_bind, hv, Arguments.types, hs, Traced.value_pure,
    Traced.seen_pure, List.append_nil, and_self]

private theorem dispatchMethod_of_some (hb : b.Sound) {values : List Value} {m : Method σ}
    {fit : Fit}
    (hv : (Arguments.ofCall call ctx.evaluator ctx.options.maxArgs).value = .ok ⟨values⟩)
    (hs : Method.select ctx.hierarchy b.owner.methods call.name (values.map Value.callType) =
      some (m, fit)) :
    (b.dispatchMethod ctx call).value =
        (b.methodReply m values, b.withState (m.body b.receiver.state values).2) ∧
      (b.dispatchMethod ctx call).seen =
        (Arguments.ofCall call ctx.evaluator ctx.options.maxArgs).seen ++
          (m.body b.receiver.state values).1.events := by
  have harity : m.arity = Arguments.size ⟨values⟩ :=
    (Method.select_eq_some_iff.mp hs).takes.2.arity_eq.trans (List.length_map _)
  obtain ⟨hvalue, hseen⟩ := callMethod_of_sound hb harity fit
  rw [dispatchMethod, hb.methods_eq]
  simp only [Traced.value_bind, Traced.seen_bind, hv, Arguments.types, hs, hvalue, hseen,
    and_self]

/-- Dispatch answers what belongs to the end that a call comes to. -/
theorem dispatch_of_decides (hb : b.Sound) {d : Decision σ} (h : b.Decides ctx call d) :
    (b.dispatch ctx call).value = (d.reply b call, b.withState (d.state b)) ∧
      (b.dispatch ctx call).seen = d.seen b ctx.evaluator call := by
  cases h with
  | @field f answers =>
    obtain ⟨hvalue, hseen⟩ := readField_of_sound hb f
    rw [dispatch, (fieldFor?_eq_some_iff hb).mpr answers]
    simp only [Traced.value_bind, Traced.seen_bind, hvalue, hseen, Traced.value_pure,
      Traced.seen_pure, List.append_nil]
    exact ⟨rfl, rfl⟩
  | tooMany unread exceeds =>
    obtain ⟨hvalue, hseen⟩ := Arguments.ofCall_of_exceeds exceeds ctx.evaluator
    rw [dispatch, fieldFor?_eq_none hb unread, Decision.seen, ← hseen]
    exact dispatchMethod_of_error hvalue
  | panicked unread within panics =>
    obtain ⟨hvalue, hseen⟩ := Arguments.ofCall_of_panicsFirst within panics
    rw [dispatch, fieldFor?_eq_none hb unread, Decision.seen, ← hseen]
    exact dispatchMethod_of_error hvalue
  | unmatched ready untaken =>
    obtain ⟨unread, within, yields⟩ := ready
    obtain ⟨hvalue, hseen⟩ := Arguments.ofCall_of_yields within yields
    rw [dispatch, fieldFor?_eq_none hb unread, Decision.seen, ← hseen]
    exact dispatchMethod_of_none hb hvalue (Method.select_eq_none_iff.mpr untaken)
  | method resolves =>
    obtain ⟨⟨unread, within, yields⟩, fit, chosen⟩ := resolves
    obtain ⟨hvalue, hseen⟩ := Arguments.ofCall_of_yields within yields
    rw [dispatch, fieldFor?_eq_none hb unread, Decision.seen, ← hseen]
    exact dispatchMethod_of_some hb hvalue (Method.select_eq_some_iff.mpr chosen)

end Dispatch

end Binding

end HostCall
