import HostCall.Proofs.Boundary.Faultless
import HostCall.Proofs.Call.Parameters
import HostCall.Proofs.Component.Answer
import Mathlib.Data.Nat.Find

/-!
# The checks at the boundary to host code

Constructors and methods check the number of their arguments, getters and methods the type of the
instance, typed methods that an argument is there, and configured constructors that it is a node.
In the life of a component none of these checks ever fails. So an error of host code that a
component tells comes from host code: it failed, it panicked, or it was given an argument that is
not converted.
-/

namespace HostCall

variable {σ : Type}

/-- A run of host code ends with an error: the code fails with it, or the code panics. -/
inductive HostRun.Raises {α : Type} (r : HostRun α) : HostError → Prop
  | failed {e : HostError} (h : r.outcome = .failed e) : Raises r e
  | panicked {p : Panic} (h : r.outcome = .panicked p) : Raises r p.error

theorem HostRun.contain_eq_error_iff {α : Type} {r : HostRun α} {e : HostError} :
    r.outcome.contain = .error e ↔ r.Raises e := by
  constructor
  · intro h
    cases ho : r.outcome with
    | returned a =>
      rw [ho] at h
      cases h
    | failed e' =>
      rw [ho] at h
      cases h
      exact .failed ho
    | panicked p =>
      rw [ho] at h
      cases h
      exact .panicked ho
  · intro h
    cases h with
    | failed h => rw [h]; rfl
    | panicked h => rw [h]; rfl

/-! ## Reads of typed methods -/

/-- The datum at a position. An argument that is missing is a breach. -/
def ArgumentList.getExposed (args : ArgumentList) (type : HostType) (i : Position) :
    Exposed (Except HostError type.Carrier) :=
  match args[i.toNat]? with
  | some v => return (type.ofValue v).mapError (.argument i.toNat)
  | none => Exposed.breach (.arity (i + 1).toNat args.length)

private theorem getExposed_eq {args : ArgumentList} {i : ArgumentList.Position}
    (hi : i.toNat < args.length) (type : HostType) :
    args.getExposed type i = pure (args.get type i) := by
  have hv : args[i.toNat]? = some args[i.toNat] := List.getElem?_eq_getElem hi
  rw [ArgumentList.get_of_getElem? hv, ArgumentList.getExposed, hv]

namespace TypedCode

/-- The code of a typed method, where nothing is taken for granted about its arguments. -/
def bodyExposed (t : TypedCode σ) (s : σ) (args : ArgumentList) : Exposed (HostRun Value × σ) :=
  match t with
  | .zero f => return f s
  | .one a f => do
    match ← args.getExposed a.type 0 with
    | .error e => return Method.refuse s e
    | .ok x => return f s x
  | .two a b f => do
    match ← args.getExposed a.type 0 with
    | .error e => return Method.refuse s e
    | .ok x =>
      match ← args.getExposed b.type 1 with
      | .error e => return Method.refuse s e
      | .ok y => return f s x y

private theorem pure_bind_of {α β : Type} {a : α} {f : α → Exposed β} {x : Exposed β}
    (h : f a = x) : pure a >>= f = x := h

/-- What a typed method reads is there when there is an argument for each of its parameters. -/
theorem bodyExposed_eq {t : TypedCode σ} {args : ArgumentList}
    (ha : args.length = t.slots.length) (name : String) (s : σ) :
    t.bodyExposed s args = pure ((t.method name).body s args) := by
  cases t with
  | zero f => rfl
  | one a f =>
    have h0 : (0 : ArgumentList.Position).toNat < args.length := by
      rw [ha]
      exact Nat.one_pos
    simp only [bodyExposed, getExposed_eq h0, method, Method.typed1]
    apply pure_bind_of
    cases args.get a.type 0 <;> rfl
  | two a b f =>
    have h0 : (0 : ArgumentList.Position).toNat < args.length := by
      rw [ha]
      exact Nat.two_pos
    have h1 : (1 : ArgumentList.Position).toNat < args.length := by
      rw [ha]
      exact Nat.one_lt_two
    simp only [bodyExposed, getExposed_eq h0, getExposed_eq h1, method, Method.typed2]
    apply pure_bind_of
    cases args.get a.type 0 with
    | error e => rfl
    | ok x =>
      apply pure_bind_of
      cases args.get b.type 1 <;> rfl

def Complains (t : TypedCode σ) (values : List Value) (e : HostError) : Prop :=
  ∃ i cause, t.FailsAt values i cause ∧ (∀ j < i, ∀ e, ¬ t.FailsAt values j e) ∧
    e = .argument i cause

/-- An error of a typed method is a complaint about an argument, or its code has run on the data of
all of them and ended with it. -/
theorem complains_or_raises {t : TypedCode σ} {values : List Value}
    (hl : values.length = t.slots.length) {name : String} {s : σ} {e : HostError}
    (h : ((t.method name).body s values).1.Raises e) :
    t.Complains values e ∨ ∃ ended, t.Runs s values ended ∧ ended.1.Raises e := by
  classical
  by_cases hf : ∃ i cause, t.FailsAt values i cause
  · obtain ⟨cause, hcause⟩ := Nat.find_spec hf
    have hfirst : ∀ j < Nat.find hf, ∀ e, ¬ t.FailsAt values j e :=
      fun j hj e he => Nat.find_min hf hj ⟨e, he⟩
    rw [body_of_failsAt hcause hfirst] at h
    refine .inl ⟨Nat.find hf, cause, hcause, hfirst, ?_⟩
    cases h with
    | failed h => exact (Outcome.failed.inj h).symm
    | panicked h => cases h
  · have hok : ∀ i e, ¬ t.FailsAt values i e := fun i e he => hf ⟨i, e, he⟩
    exact .inr ⟨_, runs_body hl hok name s, h⟩

end TypedCode

/-- A typed method that takes arguments has a slot for each of them. -/
theorem Method.Takes.length_slots {h : Hierarchy} {t : TypedCode σ} {name called : String}
    {values : List Value}
    (ht : (t.method name).Takes h called (values.map Value.callType)) :
    values.length = t.slots.length := by
  have harity := ht.arity_eq
  rw [List.length_map, Method.arity, TypedCode.params_method, List.length_map] at harity
  exact harity.symm

/-! ## Where errors come from -/

def BindError.hostError? : BindError → Option HostError
  | constructorFailed _ e => some e
  | _ => none

def CallError.hostError? : CallError → Option HostError
  | unusable _ cause => cause.hostError?
  | invocation _ e | evaluation _ _ e => some e
  | _ => none

namespace Blueprint

def made (c : HostClass σ) (r : HostRun σ) : Except BindError (Binding σ) :=
  match r.outcome.contain with
  | .ok s => .ok (.ofInstance c { native := c.native, state := s })
  | .error e => .error (.constructorFailed c.name e)

/-- The plain constructor serves without a configuration, and where none takes one. -/
theorem instantiate_of_without {c : HostClass σ} {config : Option NodeView}
    (h : config = none ∨ c.constructor? [.node] = none) :
    (c.instantiate config).value = c.instantiatePlain.value ∧
      (c.instantiate config).seen = c.instantiatePlain.seen := by
  cases config with
  | none => exact ⟨rfl, rfl⟩
  | some v =>
    have hno := h.resolve_left (by simp)
    simp only [HostClass.instantiate, hno]
    exact ⟨rfl, rfl⟩

variable {p : Blueprint σ}

theorem bind_of_constructs (hv : p.options.isValid = true) {c : HostClass σ} {r : HostRun σ}
    (h : p.Constructs c r) : p.bind.value = made c r := by
  rw [bind, Options.validate, if_pos hv, made]
  cases h with
  | @configured make v found given has =>
    have hmade : (c.construct (.configured make) [.node v.copy]).value =
        (make v.copy).outcome.contain.map fun s => { native := c.native, state := s } := rfl
    simp only [Registry.bind, found, HostClass.instantiate, given, has, Traced.value_bind, hmade]
    cases (make v.copy).outcome.contain <;> rfl
  | plain found without has =>
    have hmade : (c.construct (.plain r) []).value =
        r.outcome.contain.map fun s => { native := c.native, state := s } := rfl
    simp only [Registry.bind, found, Traced.value_bind, (instantiate_of_without without).1,
      HostClass.instantiatePlain, has, hmade]
    cases r.outcome.contain <;> rfl

private theorem isValid_of_failed {name : String} {e : HostError}
    (h : p.bind.value = .error (.constructorFailed name e)) : p.options.isValid = true := by
  by_contra hv
  rw [bind, Options.validate, if_neg hv] at h
  cases h

/-- Only a constructor that the blueprint uses can have failed. -/
private theorem exists_constructs {name : String} {e : HostError}
    (h : p.bind.value = .error (.constructorFailed name e)) : ∃ c r, p.Constructs c r := by
  have hv := isValid_of_failed h
  rw [bind, Options.validate, if_pos hv] at h
  simp only [Registry.bind] at h
  cases found : p.registry.get? p.typeName with
  | none =>
    rw [found] at h
    cases h
  | some c =>
    rcases exists_constructs_or found with ⟨r, constructs⟩ | ⟨without, lacks⟩
    · exact ⟨c, r, constructs⟩
    · simp only [found, Traced.value_bind] at h
      rw [(instantiate_of_without without).1, HostClass.instantiatePlain, lacks] at h
      cases h

theorem constructs_of_failed {name : String} {e : HostError}
    (h : p.bind.value = .error (.constructorFailed name e)) :
    ∃ c r, p.Constructs c r ∧ r.Raises e := by
  have hv := isValid_of_failed h
  obtain ⟨c, r, hc⟩ := exists_constructs h
  refine ⟨c, r, hc, ?_⟩
  rw [bind_of_constructs hv hc, made] at h
  cases hr : r.outcome.contain with
  | ok s =>
    rw [hr] at h
    cases h
  | error e' =>
    rw [hr] at h
    cases h
    exact HostRun.contain_eq_error_iff.mp hr

end Blueprint

/-- Where an error of host code comes from that is behind a failed call. -/
inductive Binding.Origin (b : Binding σ) (ctx : CallContext) (call : NodeView) : HostError → Prop
  | field {f : Field σ} {p : Panic} (answers : b.FieldAnswers ctx call f)
      (panics : (f.read b.receiver.state).answer = .error p) : Origin b ctx call p.error
  | argument {i : Nat} {p : Panic} (panics : ctx.evaluator.PanicsFirst call.children i p) :
      Origin b ctx call p.error
  | method {m : Method σ} {values : List Value} {e : HostError}
      (resolves : b.Resolves ctx call m values)
      (raises : (m.body b.receiver.state values).1.Raises e)
      (typed : ∀ (t : TypedCode σ) (name : String), m = t.method name → t.Complains values e ∨
        ∃ ended, t.Runs b.receiver.state values ended ∧ ended.1.Raises e) :
      Origin b ctx call e

namespace Binding

variable {b : Binding σ} {ctx : CallContext} {call : NodeView} {err : CallError} {e : HostError}

private theorem origin_of_fieldReply {f : Field σ} (hf : b.FieldAnswers ctx call f)
    (h : b.fieldReply f = .error err) (he : err.hostError? = some e) : b.Origin ctx call e := by
  rw [fieldReply, Response.contain] at h
  cases hr : (f.read b.receiver.state).answer with
  | ok v =>
    rw [hr] at h
    cases h
  | error p =>
    rw [hr] at h
    cases h
    cases he
    exact .field hf hr

private theorem origin_of_methodReply {m : Method σ} {values : List Value}
    (hm : b.Resolves ctx call m values) (h : b.methodReply m values = .error err)
    (he : err.hostError? = some e) : b.Origin ctx call e := by
  rw [methodReply] at h
  cases hr : (m.body b.receiver.state values).1.outcome.contain with
  | ok v =>
    rw [hr] at h
    cases h
  | error cause =>
    rw [hr] at h
    cases h
    cases he
    have hraises := HostRun.contain_eq_error_iff.mp hr
    refine .method hm hraises ?_
    intro t name htyped
    subst htyped
    obtain ⟨-, fit, hchosen⟩ := hm
    exact TypedCode.complains_or_raises hchosen.takes.2.length_slots hraises

theorem origin_of_reply {d : Decision σ} (hd : b.Decides ctx call d)
    (h : d.reply b call = .error err) (he : err.hostError? = some e) : b.Origin ctx call e := by
  cases hd with
  | field answers => exact origin_of_fieldReply answers h he
  | method resolves => exact origin_of_methodReply resolves h he
  | panicked unread within panics =>
    cases h
    cases he
    exact .argument panics
  | tooMany unread exceeds =>
    cases h
    cases he
  | unmatched ready untaken =>
    cases h
    cases he

end Binding

/-- An error of host code that a component tells comes from the constructor that was to make its
instance, or from what a call has run. -/
theorem Component.origin_of_answer {c : Component σ} (hc : c.Sound) {call : NodeView}
    {err : CallError} {e : HostError} (h : (c.answer call).value.1 = .error err)
    (he : err.hostError? = some e) :
    (∃ name, c.cause? = some (.constructorFailed name e)) ∨
      ∃ b, c.standing = .bound b ∧ b.Origin c.context call e := by
  cases hs : c.standing with
  | unbound cause =>
    rw [answer, hs] at h
    cases h
    rw [cause?, hs]
    cases cause with
    | constructorFailed name e' =>
      cases he
      exact .inl ⟨name, rfl⟩
    | _ => cases he
  | bound b =>
    obtain ⟨d, hd⟩ := b.exists_decides c.context call
    rw [(answer_of_decides hc hs hd).1] at h
    exact .inr ⟨b, rfl, Binding.origin_of_reply hd h he⟩

namespace Blueprint

/-- The constructor that the blueprint uses has run and ended with an error. -/
def ConstructorRaises (p : Blueprint σ) (e : HostError) : Prop :=
  ∃ c r, p.Constructs c r ∧ r.Raises e

theorem raises_of_cause? {p : Blueprint σ} {name : String} {e : HostError}
    (h : p.build.value.cause? = some (.constructorFailed name e)) : p.ConstructorRaises e := by
  rw [build, Traced.value_bind] at h
  cases hb : p.bind.value with
  | ok b =>
    rw [hb] at h
    cases h
  | error cause =>
    rw [hb] at h
    cases h
    exact constructs_of_failed hb

/-- In all lives of the components of a blueprint, no check at the boundary to host code fails. -/
structure Unhindered (p : Blueprint σ) : Prop where
  faultless : p.Faultless
  /-- The arguments that a typed method reads are there, whatever the state of the instance. -/
  reads : ∀ c b call (t : TypedCode σ) name values, p.Stage c →
    c.standing = .bound b → b.Resolves c.context call (t.method name) values →
    ∀ s, t.bodyExposed s values = pure ((t.method name).body s values)
  constructed : ∀ name e, p.build.value.cause? = some (.constructorFailed name e) →
    p.ConstructorRaises e
  tried : ∀ name e, p.tryBuild.value = .error (.constructorFailed name e) →
    p.ConstructorRaises e
  invoked : ∀ c call err e, p.Stage c →
    (c.invoke call).value.1 = .error err → err.hostError? = some e →
    p.ConstructorRaises e ∨ ∃ b, c.standing = .bound b ∧ b.Origin c.context call e
  /-- What a closing call tells comes from there as well. -/
  closing : ∀ c err e, p.Stage c →
    (c.shut.answer c.closeCall).value.1 = .error err → err.hostError? = some e →
    p.ConstructorRaises e ∨ ∃ b, c.standing = .bound b ∧ b.Origin c.context c.closeCall e

/-- Whatever the classes, the configuration, the options and the operations are, no check at the
boundary to host code fails, and the errors of host code that are told come from host code. -/
theorem guards_unreachable (p : Blueprint σ) : p.Unhindered := by
  have hcause {c : Component σ} (hc : p.Stage c) {name : String} {e : HostError}
      (h : c.cause? = some (.constructorFailed name e)) : p.ConstructorRaises e := by
    rw [hc.kin.cause?_eq] at h
    exact raises_of_cause? h
  refine ⟨p.faultless, ?_, ?_, ?_, ?_, ?_⟩
  · intro c b call t name values hc hb hr s
    obtain ⟨-, fit, hchosen⟩ := hr
    exact TypedCode.bodyExposed_eq hchosen.takes.2.length_slots name s
  · intro name e h
    exact raises_of_cause? h
  · intro name e h
    rw [tryBuild_value] at h
    cases hc : p.build.value.cause? with
    | none =>
      rw [hc] at h
      cases h
    | some cause =>
      rw [hc] at h
      cases h
      exact raises_of_cause? hc
  · intro c call err e hc h he
    rw [(Component.invoke_eq_answer _ call).1] at h
    rcases Component.origin_of_answer hc.sound h he with ⟨name, hn⟩ | horigin
    · exact .inl (hcause hc hn)
    · exact .inr horigin
  · intro c err e hc h he
    rcases Component.origin_of_answer hc.sound.shut h he with ⟨name, hn⟩ | horigin
    · exact .inl (hcause hc hn)
    · exact .inr horigin

end Blueprint

end HostCall
