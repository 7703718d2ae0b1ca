import HostCall.Proofs.Component.Reachable

/-!
# The answers of a bound component

What a bound component answers to a call follows an ordered rule. A field answers first; then come
the bound on arguments, the first argument whose evaluation panics, and a missing method; only a
call that passes all of these runs a method, on the instance as it is and on the values of its
children.
-/

namespace HostCall

variable {σ : Type}

namespace Component

section

variable {c : Component σ} {b : Binding σ} {call : NodeView}

theorem invoke_of_decides (hc : c.Sound) (hb : c.standing = .bound b) {d : Decision σ}
    (h : b.Decides c.context call d) :
    (c.invoke call).value = (d.reply b call, c.withState (d.state b)) ∧
      (c.invoke call).seen = d.seen b c.evaluator call := by
  rw [(c.invoke_eq_answer call).1, (c.invoke_eq_answer call).2]
  exact answer_of_decides hc hb h

/-- The end of a call can be read off its reply. -/
theorem exists_decides_of_reply (hc : c.Sound) (hb : c.standing = .bound b)
    {r : Except CallError Value} (hr : (c.invoke call).value.1 = r) :
    ∃ d, b.Decides c.context call d ∧ d.reply b call = r := by
  obtain ⟨d, hd⟩ := b.exists_decides c.context call
  rw [(invoke_of_decides hc hb hd).1] at hr
  exact ⟨d, hd, hr⟩

end

/-- The ordered rule that the answer of a bound component to a call follows. -/
structure FollowsRule (c : Component σ) (b : Binding σ) (call : NodeView) : Prop where
  /-- A field that answers is read on the current state, and nothing else runs. -/
  field : ∀ f, b.FieldAnswers c.context call f →
    (c.invoke call).value =
        ((f.read b.receiver.state).contain.mapError
          (.invocation (b.owner.name ++ "." ++ call.name)), c) ∧
      (c.invoke call).seen = (f.read b.receiver.state).events
  tooMany : ∀ name given max,
    (c.invoke call).value.1 = .error (.tooManyArguments name given max) ↔
      b.Unread c.context call ∧ call.Exceeds c.options.maxArgs max ∧
        name = call.name ∧ given = call.claimed
  panicked : ∀ name index e,
    (c.invoke call).value.1 = .error (.evaluation name index e) ↔
      b.Unread c.context call ∧ call.Within c.options.maxArgs ∧
        ∃ p, c.evaluator.PanicsFirst call.children index p ∧ name = call.name ∧ e = p.error
  unmatched : ∀ name types className,
    (c.invoke call).value.1 = .error (.noSuchMethod name types className) ↔
      b.Unread c.context call ∧ call.Within c.options.maxArgs ∧
        ∃ values, c.evaluator.Yields call.children values ∧
          (∀ m ∈ b.owner.methods,
            ¬ m.Takes c.registry.hierarchy call.name (values.map Value.callType)) ∧
          name = call.name ∧ types = values.map Value.callType ∧ className = b.owner.name
  /-- The chosen method runs on the current state, after all arguments were evaluated. -/
  method : ∀ values m fit, b.Unread c.context call → call.Within c.options.maxArgs →
    c.evaluator.Yields call.children values →
    Method.Chosen c.registry.hierarchy b.owner.methods call.name
      (values.map Value.callType) m fit →
    (c.invoke call).value =
        ((m.body b.receiver.state values).1.outcome.contain.mapError
          (.invocation (CallType.signature b.owner.name call.name m.params)),
        c.withState (m.body b.receiver.state values).2) ∧
      (c.invoke call).seen =
        c.evaluator.seen call.children ++ (m.body b.receiver.state values).1.events
  /-- One of the cases applies to every call. -/
  complete : (∃ f, b.FieldAnswers c.context call f) ∨
    (∃ name given max, (c.invoke call).value.1 = .error (.tooManyArguments name given max)) ∨
    (∃ name index e, (c.invoke call).value.1 = .error (.evaluation name index e)) ∨
    (∃ name types className,
      (c.invoke call).value.1 = .error (.noSuchMethod name types className)) ∨
    ∃ values m fit, b.Unread c.context call ∧ call.Within c.options.maxArgs ∧
      c.evaluator.Yields call.children values ∧
      Method.Chosen c.registry.hierarchy b.owner.methods call.name
        (values.map Value.callType) m fit

/-- In every reachable state, whatever the evaluator, the options and the call are, the answer of
a bound component follows the ordered rule. -/
theorem invoke_followsRule {c : Component σ} (hc : c.Reachable) {b : Binding σ}
    (hb : c.standing = .bound b) (call : NodeView) : c.FollowsRule b call where
  field f hf := by
    obtain ⟨hvalue, hseen⟩ := invoke_of_decides hc.sound hb (.field hf)
    refine ⟨?_, hseen⟩
    rw [hvalue, ← hf.2.2.2]
    exact congrArg _ (withState_self hb)
  tooMany name given max := by
    constructor
    · intro h
      obtain ⟨d, hd, hr⟩ := exists_decides_of_reply hc.sound hb h
      obtain ⟨rfl, hname, hgiven⟩ := Decision.eq_tooMany_of_reply hr
      cases hd with
      | tooMany unread exceeds => exact ⟨unread, exceeds, hname, hgiven⟩
    · intro hcond
      obtain ⟨unread, exceeds, rfl, rfl⟩ := hcond
      rw [(invoke_of_decides hc.sound hb (.tooMany unread exceeds)).1]
      rfl
  panicked name index e := by
    constructor
    · intro h
      obtain ⟨d, hd, hr⟩ := exists_decides_of_reply hc.sound hb h
      obtain ⟨p, rfl, hname, he⟩ := Decision.eq_panicked_of_reply hr
      cases hd with
      | panicked unread within panics => exact ⟨unread, within, p, panics, hname, he⟩
    · intro hcond
      obtain ⟨unread, within, p, panics, rfl, rfl⟩ := hcond
      rw [(invoke_of_decides hc.sound hb (.panicked unread within panics)).1]
      rfl
  unmatched name types className := by
    constructor
    · intro h
      obtain ⟨d, hd, hr⟩ := exists_decides_of_reply hc.sound hb h
      obtain ⟨values, rfl, hname, hclass, htypes⟩ := Decision.eq_unmatched_of_reply hr
      cases hd with
      | unmatched ready untaken =>
        obtain ⟨unread, within, yields⟩ := ready
        exact ⟨unread, within, values, yields, untaken, hname, htypes, hclass⟩
    · intro hcond
      obtain ⟨unread, within, values, yields, untaken, rfl, rfl, rfl⟩ := hcond
      rw [(invoke_of_decides hc.sound hb (.unmatched ⟨unread, within, yields⟩ untaken)).1]
      rfl
  method values m fit unread within yields chosen := by
    obtain ⟨hvalue, hseen⟩ := invoke_of_decides hc.sound hb
      (.method ⟨⟨unread, within, yields⟩, fit, chosen⟩)
    refine ⟨?_, hseen⟩
    rw [hvalue, ← chosen.takes.2.1]
    rfl
  complete := by
    obtain ⟨d, hd⟩ := b.exists_decides c.context call
    have hreply := congrArg Prod.fst (invoke_of_decides hc.sound hb hd).1
    cases hd with
    | field answers => exact .inl ⟨_, answers⟩
    | tooMany unread exceeds => exact .inr (.inl ⟨_, _, _, hreply⟩)
    | panicked unread within panics => exact .inr (.inr (.inl ⟨_, _, _, hreply⟩))
    | unmatched ready untaken => exact .inr (.inr (.inr (.inl ⟨_, _, _, hreply⟩)))
    | method resolves =>
      obtain ⟨⟨unread, within, yields⟩, fit, chosen⟩ := resolves
      exact .inr (.inr (.inr (.inr ⟨_, _, fit, unread, within, yields, chosen⟩)))

end Component

namespace Tally

/-- A class whose instances count how often they were raised; the count is also a field. -/
def hostClass : HostClass Nat where
  name := "demo.Tally"
  native := "Tally"
  constructors := [.plain { outcome := .returned 0 }]
  fields := [{ name := "count", read := fun n => { answer := .ok (.long (Int64.ofNat n)) } }]
  methods := [
    .typed1 "raise" ⟨.plain .value, .object, rfl⟩ fun n _ =>
      ({ outcome := .returned .null, events := ["raised"] }, n + 1),
    .typed0 "fail" fun n => ({ outcome := .panicked .other, events := ["failing"] }, n + 2)]
  constructors_distinct := by decide
  fields_distinct := by decide
  methods_distinct := by decide

def blueprint : Blueprint Nat :=
  { registry := Registry.empty.insert hostClass, typeName := "demo.Tally",
    options := { maxArgs := some 1 } }

def binding : Binding Nat := .ofInstance hostClass { native := "Tally", state := 0 }

def component : Component Nat := blueprint.build.value

theorem reachable_component : component.Reachable := .build blueprint

theorem standing_component : component.standing = .bound binding := by
  have hr : blueprint.registry.get? "demo.Tally" = some hostClass :=
    Std.TreeMap.getElem?_insert_self
  rw [component, Component.build_of_plain (by decide) hr rfl rfl rfl]
  rfl

end Tally

/-- A call of one argument follows the rule on a component that allows one argument. -/
theorem tally_followsRule :
    Tally.component.Reachable ∧ Tally.component.standing = .bound Tally.binding ∧
      Tally.component.FollowsRule Tally.binding (Graph.node "raise" [.leaf "1"]).view :=
  ⟨Tally.reachable_component, Tally.standing_component,
    Component.invoke_followsRule Tally.reachable_component Tally.standing_component _⟩

end HostCall
