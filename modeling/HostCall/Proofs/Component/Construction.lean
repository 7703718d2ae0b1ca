import HostCall.Proofs.Boundary.Guards
import HostCall.Proofs.Component.Permanence
import HostCall.Proofs.Host.Declarations

/-!
# How components are built

The options are looked at before the class, and the class before its constructors. At most one
constructor runs: the configured one where there is a configuration for it, and the plain one
otherwise. What comes of it is settled for good, whatever operations follow.
-/

namespace HostCall

open Traced (Agrees)

variable {σ : Type}

theorem HostClass.seen_construct (c : HostClass σ) {k : Constructor σ} {args : ArgumentList}
    (h : args.length = k.params.length) : (c.construct k args).seen = (k.run args).events := by
  rw [construct, if_pos h, Traced.seen_bind, Traced.seen_events]
  exact List.append_nil _

namespace Blueprint

/-- What a blueprint comes to, and what others see of the constructor that runs, if one does. -/
inductive Settles (p : Blueprint σ) : Except BindError (Binding σ) → List String → Prop
  | invalid (blank : Text.isBlank p.options.closeMethod = true) :
      Settles p (.error (.invalidOptions p.typeName
        "Invalid options: close_method must not be empty")) []
  | unknown (named : Text.isBlank p.options.closeMethod = false)
      (missing : p.registry.contains p.typeName = false) :
      Settles p (.error (.classNotFound p.typeName)) []
  | unmakeable {c : HostClass σ} (named : Text.isBlank p.options.closeMethod = false)
      (found : p.registry.get? p.typeName = some c)
      (without : p.config = none ∨ c.constructor? [.node] = none)
      (lacks : c.constructor? [] = none) :
      Settles p (.error (.noUsableConstructor p.typeName)) []
  | failed {c : HostClass σ} {r : HostRun σ} {e : HostError}
      (named : Text.isBlank p.options.closeMethod = false) (constructs : p.Constructs c r)
      (raises : r.Raises e) : Settles p (.error (.constructorFailed p.typeName e)) r.events
  | bound {c : HostClass σ} {r : HostRun σ} {s : σ}
      (named : Text.isBlank p.options.closeMethod = false) (constructs : p.Constructs c r)
      (returns : r.outcome = .returned s) :
      Settles p (.ok (.ofInstance c { native := c.native, state := s })) r.events

variable {p : Blueprint σ}

theorem isValid_of_named (h : Text.isBlank p.options.closeMethod = false) :
    p.options.isValid = true := by
  rw [Options.isValid, h]
  rfl

/-- With blank options nothing else of a blueprint matters. -/
theorem bind_of_blank (h : Text.isBlank p.options.closeMethod = true) :
    p.bind = pure (.error (.invalidOptions p.typeName
      "Invalid options: close_method must not be empty")) := by
  rw [bind, Options.validate, Options.isValid, h]
  rfl

theorem Constructs.found {c : HostClass σ} {r : HostRun σ} (h : p.Constructs c r) :
    p.registry.get? p.typeName = some c := by
  cases h with
  | configured found _ _ | plain found _ _ => exact found

/-- Once the options are fine, others see of the binding what they see of the constructor. -/
theorem seen_bind_of_found (h : Text.isBlank p.options.closeMethod = false) {c : HostClass σ}
    (found : p.registry.get? p.typeName = some c) :
    p.bind.seen = (c.instantiate p.config).seen := by
  rw [bind, Options.validate, if_pos (isValid_of_named h)]
  simp only [Registry.bind, found, Traced.seen_bind]
  cases (c.instantiate p.config).value with
  | error e => simp
  | ok i => simp

theorem seen_bind_of_constructs (h : Text.isBlank p.options.closeMethod = false)
    {c : HostClass σ} {r : HostRun σ} (hc : p.Constructs c r) : p.bind.seen = r.events := by
  cases hc with
  | @configured make v found given has =>
    have hmade : (c.construct (.configured make) [.node v.copy]).seen = (make v.copy).events :=
      HostClass.seen_construct c rfl
    rw [seen_bind_of_found h found, given]
    simp only [HostClass.instantiate, has, Traced.seen_bind, Traced.seen_log, Traced.seen_pure,
      hmade, List.nil_append, List.append_nil]
  | plain found without has =>
    have hmade : (c.construct (.plain r) []).seen = r.events := HostClass.seen_construct c rfl
    rw [seen_bind_of_found h found, (instantiate_of_without without).2]
    simp only [HostClass.instantiatePlain, has, Traced.seen_bind, Traced.seen_pure, hmade,
      List.append_nil]

theorem bind_of_unknown (h : Text.isBlank p.options.closeMethod = false)
    (missing : p.registry.contains p.typeName = false) :
    p.bind = pure (.error (.classNotFound p.typeName)) := by
  rw [bind, Options.validate, if_pos (isValid_of_named h), Registry.bind,
    Registry.get?_eq_none_iff.mpr missing]

theorem bind_of_unmakeable (h : Text.isBlank p.options.closeMethod = false) {c : HostClass σ}
    (found : p.registry.get? p.typeName = some c)
    (without : p.config = none ∨ c.constructor? [.node] = none)
    (lacks : c.constructor? [] = none) :
    p.bind.value = .error (.noUsableConstructor p.typeName) ∧ p.bind.seen = [] := by
  have hplain : c.instantiatePlain = pure (.error (.noUsableConstructor c.name)) := by
    rw [HostClass.instantiatePlain, lacks]
  constructor
  · rw [bind, Options.validate, if_pos (isValid_of_named h)]
    simp only [Registry.bind, found, Traced.value_bind, (instantiate_of_without without).1, hplain,
      Traced.value_pure, p.registry.name_eq found]
  · rw [seen_bind_of_found h found, (instantiate_of_without without).2, hplain, Traced.seen_pure]

/-- The way that a blueprint goes determines what comes of it. -/
theorem Settles.bind_eq {made : Except BindError (Binding σ)} {seen : List String}
    (h : p.Settles made seen) : p.bind.value = made ∧ p.bind.seen = seen := by
  cases h with
  | invalid blank =>
    rw [bind_of_blank blank]
    exact ⟨rfl, rfl⟩
  | unknown named missing =>
    rw [bind_of_unknown named missing]
    exact ⟨rfl, rfl⟩
  | unmakeable named found without lacks => exact bind_of_unmakeable named found without lacks
  | failed named constructs raises =>
    refine ⟨?_, seen_bind_of_constructs named constructs⟩
    rw [bind_of_constructs (isValid_of_named named) constructs, Blueprint.made,
      HostRun.contain_eq_error_iff.mpr raises, p.registry.name_eq constructs.found]
  | bound named constructs returns =>
    refine ⟨?_, seen_bind_of_constructs named constructs⟩
    rw [bind_of_constructs (isValid_of_named named) constructs, Blueprint.made, returns]
    rfl

theorem settles (p : Blueprint σ) : p.Settles p.bind.value p.bind.seen := by
  have hway : ∃ made seen, p.Settles made seen := by
    cases blank : Text.isBlank p.options.closeMethod with
    | true => exact ⟨_, _, .invalid blank⟩
    | false =>
      cases found : p.registry.get? p.typeName with
      | none => exact ⟨_, _, .unknown blank (Registry.get?_eq_none_iff.mp found)⟩
      | some c =>
        rcases exists_constructs_or found with ⟨r, constructs⟩ | ⟨without, lacks⟩
        · cases ho : r.outcome with
          | returned s => exact ⟨_, _, .bound blank constructs ho⟩
          | failed e => exact ⟨_, _, .failed blank constructs (.failed ho)⟩
          | panicked e => exact ⟨_, _, .failed blank constructs (.panicked ho)⟩
        · exact ⟨_, _, .unmakeable blank found without lacks⟩
  obtain ⟨made, seen, h⟩ := hway
  obtain ⟨hvalue, hseen⟩ := h.bind_eq
  rwa [hvalue, hseen]

theorem bind_value_eq_iff {made : Except BindError (Binding σ)} :
    p.bind.value = made ↔ ∃ seen, p.Settles made seen := by
  constructor
  · rintro rfl
    exact ⟨_, p.settles⟩
  · rintro ⟨seen, h⟩
    exact h.bind_eq.1

theorem Constructs.unique {c d : HostClass σ} {r q : HostRun σ} (h : p.Constructs c r)
    (h' : p.Constructs d q) : c = d ∧ r = q := by
  obtain rfl : c = d := Option.some.inj (h.found.symm.trans h'.found)
  refine ⟨rfl, ?_⟩
  cases h with
  | configured _ given has =>
    cases h' with
    | configured _ given' has' =>
      rw [given] at given'
      cases given'
      rw [has] at has'
      cases has'
      rfl
    | plain _ without _ => simp [given, has] at without
  | plain _ without has =>
    cases h' with
    | configured _ given' has' => simp [given', has'] at without
    | plain _ _ has' =>
      rw [has] at has'
      cases has'
      rfl

theorem seen_build (p : Blueprint σ) : p.build.seen = p.bind.seen := by
  rw [build, Traced.seen_bind]
  cases p.bind.value with
  | ok b => exact List.append_nil _
  | error e => simp

theorem standing_build_eq_bound_iff {b : Binding σ} :
    p.build.value.standing = .bound b ↔ p.bind.value = .ok b := by
  rw [build, Traced.value_bind]
  cases p.bind.value with
  | ok b' => simp [component]
  | error e => simp [component]

theorem cause?_build_eq_some_iff {e : BindError} :
    p.build.value.cause? = some e ↔ p.bind.value = .error e := by
  rw [build, Traced.value_bind]
  cases p.bind.value with
  | ok b => simp [component, Component.cause?]
  | error e' => simp [component, Component.cause?]

/-- The standing of what is built, by the options, the class and its constructors. One of the cases
applies to every blueprint. -/
structure BuildsByRule (p : Blueprint σ) : Prop where
  invalid : ∀ t reason, p.build.value.cause? = some (.invalidOptions t reason) ↔
    Text.isBlank p.options.closeMethod = true ∧ t = p.typeName ∧
      reason = "Invalid options: close_method must not be empty"
  /-- Then the registry and the configuration do not matter, and no constructor runs. -/
  unconsulted : Text.isBlank p.options.closeMethod = true → p.build.seen = [] ∧
    ∀ registry config, ({ p with registry, config } : Blueprint σ).bind = p.bind
  unknown : ∀ t, p.build.value.cause? = some (.classNotFound t) ↔
    Text.isBlank p.options.closeMethod = false ∧ t = p.typeName ∧
      p.registry.contains p.typeName = false
  unmakeable : ∀ t, p.build.value.cause? = some (.noUsableConstructor t) ↔
    Text.isBlank p.options.closeMethod = false ∧ t = p.typeName ∧
      ∃ c, p.registry.get? p.typeName = some c ∧
        (p.config = none ∨ c.constructor? [.node] = none) ∧ c.constructor? [] = none
  failed : ∀ t e, p.build.value.cause? = some (.constructorFailed t e) ↔
    Text.isBlank p.options.closeMethod = false ∧ t = p.typeName ∧
      ∃ c r, p.Constructs c r ∧ r.Raises e
  bound : ∀ b, p.build.value.standing = .bound b ↔
    Text.isBlank p.options.closeMethod = false ∧
      ∃ c r s, p.Constructs c r ∧ r.outcome = .returned s ∧
        b = .ofInstance c { native := c.native, state := s }
  /-- At most one constructor runs, and it runs once. -/
  single : ∀ c r c' r', p.Constructs c r → p.Constructs c' r' → c = c' ∧ r = r'
  ran : Text.isBlank p.options.closeMethod = false → ∀ c r, p.Constructs c r →
    p.build.seen = r.events
  idle : (∀ c r, ¬ p.Constructs c r) → p.build.seen = []
  tried : ∀ e, p.tryBuild.value = .error e ↔ p.build.value.cause? = some e
  tried_ok : ∀ c, p.tryBuild.value = .ok c ↔ p.build.value = c ∧ c.isBound = true
  tried_seen : p.tryBuild.seen = p.build.seen

theorem buildsByRule (p : Blueprint σ) : p.BuildsByRule where
  invalid t reason := by
    rw [cause?_build_eq_some_iff, bind_value_eq_iff]
    constructor
    · rintro ⟨_, h⟩
      cases h with
      | invalid blank => exact ⟨blank, rfl, rfl⟩
    · rintro ⟨blank, rfl, rfl⟩
      exact ⟨_, .invalid blank⟩
  unconsulted blank := by
    rw [seen_build, bind_of_blank blank]
    exact ⟨rfl, fun _ _ => bind_of_blank blank⟩
  unknown t := by
    rw [cause?_build_eq_some_iff, bind_value_eq_iff]
    constructor
    · rintro ⟨_, h⟩
      cases h with
      | unknown named missing => exact ⟨named, rfl, missing⟩
    · rintro ⟨named, rfl, missing⟩
      exact ⟨_, .unknown named missing⟩
  unmakeable t := by
    rw [cause?_build_eq_some_iff, bind_value_eq_iff]
    constructor
    · rintro ⟨_, h⟩
      cases h with
      | unmakeable named found without lacks => exact ⟨named, rfl, _, found, without, lacks⟩
    · rintro ⟨named, rfl, c, found, without, lacks⟩
      exact ⟨_, .unmakeable named found without lacks⟩
  failed t e := by
    rw [cause?_build_eq_some_iff, bind_value_eq_iff]
    constructor
    · rintro ⟨_, h⟩
      cases h with
      | failed named constructs raises => exact ⟨named, rfl, _, _, constructs, raises⟩
    · rintro ⟨named, rfl, c, r, constructs, raises⟩
      exact ⟨_, .failed named constructs raises⟩
  bound b := by
    rw [standing_build_eq_bound_iff, bind_value_eq_iff]
    constructor
    · rintro ⟨_, h⟩
      cases h with
      | bound named constructs returns => exact ⟨named, _, _, _, constructs, returns, rfl⟩
    · rintro ⟨named, c, r, s, constructs, returns, rfl⟩
      exact ⟨_, .bound named constructs returns⟩
  single _ _ _ _ h h' := h.unique h'
  ran named _ _ constructs := by rw [seen_build, seen_bind_of_constructs named constructs]
  idle hno := by
    rw [seen_build]
    have hs := p.settles
    generalize p.bind.value = made at hs
    generalize p.bind.seen = seen at hs ⊢
    cases hs with
    | invalid _ | unknown _ _ | unmakeable _ _ _ _ => rfl
    | failed _ constructs _ | bound _ constructs _ => exact absurd constructs (hno _ _)
  tried e := by
    rw [tryBuild_value]
    cases p.build.value.cause? <;> simp
  tried_ok c := by
    rw [tryBuild_value, eq_comm (a := p.build.value)]
    cases hc : p.build.value.cause? with
    | none =>
      have hb : p.build.value.isBound = true := by rw [Component.isBound_eq_isNone, hc]; rfl
      constructor
      · rintro h
        cases h
        exact ⟨rfl, hb⟩
      · rintro ⟨rfl, -⟩
        rfl
    | some e =>
      have hb : p.build.value.isBound = false := by rw [Component.isBound_eq_isNone, hc]; rfl
      constructor
      · intro h
        cases h
      · rintro ⟨rfl, h⟩
        rw [hb] at h
        cases h
  tried_seen := by
    rw [tryBuild, Traced.seen_bind]
    cases hc : p.build.value.cause? with
    | none => exact List.append_nil _
    | some e =>
      simp only [Traced.seen_bind, Component.seen_drop_of_unbound hc, Traced.seen_pure,
        List.append_nil]

/-- What the building has settled stays, whatever a component is asked to do. -/
structure Lasts (p : Blueprint σ) : Prop where
  cause : ∀ ops, (p.build.value.run ops).value.2.cause? = p.build.value.cause?
  bound : ∀ ops, (p.build.value.run ops).value.2.isBound = p.build.value.isBound
  owner : ∀ ops b, (p.build.value.run ops).value.2.standing = .bound b →
    p.registry.get? p.typeName = some b.owner
  invoked : ∀ ops call cause, p.build.value.cause? = some cause →
    (p.build.value.run ops).value.2.invoke call = do
      p.sink.report (CallError.unusable p.typeName cause).diagnostic
      return (.error (.unusable p.typeName cause), (p.build.value.run ops).value.2)
  executed : ∀ ops call cause, p.build.value.cause? = some cause →
    (p.build.value.run ops).value.2.exec call = do
      p.sink.report (CallError.unusable p.typeName cause).diagnostic
      return (.text (CallError.unusable p.typeName cause).message, (p.build.value.run ops).value.2)
  /-- Without an instance neither code of a class nor an evaluator runs. -/
  still : ∀ ops cause, p.build.value.cause? = some cause → (p.build.value.run ops).seen = []
  /-- No constructor runs again: a run is the same with any other constructors. -/
  once : ∀ ops d, p.build.value.Twin d →
    Agrees True (Replies Component.Twin) (p.build.value.run ops) (d.run ops)

theorem build_value (p : Blueprint σ) : p.build.value = p.component p.build.value.standing := by
  rw [build, Traced.value_bind]
  cases p.bind.value <;> rfl

/-- A component that could not be bound, after any run. -/
theorem standing_run {p : Blueprint σ} {cause : BindError}
    (hc : p.build.value.cause? = some cause) (ops : List Operation) :
    (p.build.value.run ops).value.2.standing = .unbound cause ∧
      (p.build.value.run ops).value.2.typeName = p.typeName ∧
      (p.build.value.run ops).value.2.sink = p.sink := by
  have hkin := p.build.value.kin_run ops
  refine ⟨Component.cause?_eq_some_iff.mp (hkin.cause?_eq.trans hc), ?_, ?_⟩
  · rw [hkin.typeName_eq, build_value]
    rfl
  · rw [hkin.sink_eq, build_value]
    rfl

theorem lasts (p : Blueprint σ) : p.Lasts where
  cause ops := (p.build.value.kin_run ops).cause?_eq
  bound ops := (p.build.value.kin_run ops).isBound_eq
  owner ops b hb := by
    have howner := Component.owner?_run (Component.sound_build p) ops
    rw [Component.owner?, Component.binding?, hb] at howner
    cases hs : p.build.value.standing with
    | unbound e =>
      rw [Component.owner?, Component.binding?, hs] at howner
      cases howner
    | bound b₀ =>
      rw [Component.owner?, Component.binding?, hs] at howner
      obtain ⟨-, c, r, s, constructs, -, rfl⟩ := (p.buildsByRule.bound b₀).mp hs
      rw [constructs.found]
      exact howner.symm
  invoked ops call cause hc := by
    obtain ⟨hs, hname, hsink⟩ := standing_run hc ops
    rw [Component.invoke_of_unbound hs, hname, hsink]
  executed ops call cause hc := by
    obtain ⟨hs, hname, hsink⟩ := standing_run hc ops
    rw [Component.exec_of_unbound hs, hname, hsink]
  still ops cause hc := Component.seen_run_of_unbound hc ops
  once ops d h := h.agrees_run ops

/-- The options, the class and its constructors settle what a component is, and no operation
unsettles it. -/
theorem settled_for_good (p : Blueprint σ) : p.BuildsByRule ∧ p.Lasts :=
  ⟨p.buildsByRule, p.lasts⟩

end Blueprint

namespace Seed

/-- A class with both kinds of constructors; the configured one fails. -/
def hostClass : HostClass Nat where
  name := "demo.Seed"
  native := "Seed"
  constructors := [
    .configured fun g => { outcome := .failed (.failed ("no seed in " ++ g.name)),
                           events := ["sowing " ++ g.name] },
    .plain { outcome := .returned 0, events := ["sowing"] }]
  constructors_distinct := by decide
  fields_distinct := by decide
  methods_distinct := by decide

def blueprint (config : Option NodeView) : Blueprint Nat :=
  { registry := Registry.empty.insert hostClass, typeName := "demo.Seed", config }

theorem found (config : Option NodeView) :
    (blueprint config).registry.get? "demo.Seed" = some hostClass :=
  Std.TreeMap.getElem?_insert_self

end Seed

/-- The plain constructor is not tried when the configured one has failed. -/
theorem seed_settled_for_good :
    (Seed.blueprint (some (.mk "sand" 0 []))).build.value.cause? =
        some (.constructorFailed "demo.Seed" (.failed "no seed in sand")) ∧
      (Seed.blueprint (some (.mk "sand" 0 []))).build.seen = ["sowing sand"] ∧
      (Seed.blueprint none).build.seen = ["sowing"] := by
  have hconfigured := Blueprint.Constructs.configured (p := Seed.blueprint (some (.mk "sand" 0 [])))
    (Seed.found _) rfl rfl
  have hplain := Blueprint.Constructs.plain (p := Seed.blueprint none) (Seed.found _) (.inl rfl) rfl
  obtain ⟨hrule, -⟩ := (Seed.blueprint (some (.mk "sand" 0 []))).settled_for_good
  obtain ⟨hrule', -⟩ := (Seed.blueprint none).settled_for_good
  have hnamed : Text.isBlank ({} : Options).closeMethod = false := by decide
  refine ⟨?_, hrule.ran hnamed _ _ hconfigured, hrule'.ran hnamed _ _ hplain⟩
  exact (hrule.failed _ _).mpr ⟨hnamed, rfl, _, _, hconfigured, .failed rfl⟩

end HostCall
