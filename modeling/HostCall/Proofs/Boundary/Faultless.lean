import HostCall.Proofs.Boundary.Exposed

/-!
# Exposed lives

In the life of a component, from its building to its drop, no check at the boundary to host code
fails. An operation that no panic gets out of comes to the same end with the same effects as it
does where panics are contained, and which panics get out is settled by the calls that it makes.
-/

namespace HostCall

open Exposed (Goes Follows sure)

variable {σ : Type} {s : Setting} {cut : Option Panic}

/-! ## Operations -/

namespace Component

section

variable {c : Component σ} {b : Binding σ} {call : NodeView} {q : Panic}

/-- A panic that cuts a call short gets out of it. -/
theorem callEscapes_of_cut? (hb : c.standing = .bound b) {d : Decision σ}
    (hd : b.Decides c.context call d) (hq : cut? s b call d = some q) :
    c.CallEscapes s call q := by
  rcases full_or_roomy s call with ⟨hrecorded, hfull⟩ | hroomy
  · rw [cut?_of_full hrecorded hfull] at hq
    cases hq
    exact .full hb hrecorded hfull
  · rw [cut?_of_roomy hroomy, Setting.escape?, Option.bind_eq_some_iff] at hq
    obtain ⟨p, hp, hdrops⟩ := hq
    obtain ⟨err, hpanics⟩ := hd.panics hp
    exact .dropped hb hroomy hpanics hdrops

/-- A panic that gets out of a call is what cuts it short at one of its ends. -/
theorem CallEscapes.exists_decides (h : c.CallEscapes s call q) :
    ∃ b d, c.standing = .bound b ∧ b.Decides c.context call d ∧ cut? s b call d = some q := by
  cases h with
  | @full b bound recorded full =>
    obtain ⟨d, hd⟩ := b.exists_decides c.context call
    exact ⟨b, d, bound, hd, cut?_of_full recorded full⟩
  | @dropped b p q err st bound roomy panics drops =>
    obtain ⟨d, hd, hp, -, -⟩ := panics.exists_decides
    refine ⟨b, d, bound, hd, ?_⟩
    rw [cut?_of_roomy roomy, hp]
    exact drops

theorem CallEscapes.invokeExposed (hc : c.Sound) (h : c.CallEscapes s call q) :
    (c.invokeExposed s call).ending = .error (.unwound q) := by
  obtain ⟨b, d, hb, hd, hcut⟩ := h.exists_decides
  rw [(invokeExposed_goes (answerExposed_of_decides hc hb hd)).ending, hcut]

end

variable {c : Component σ}

theorem exists_bound_of_dispatches {op : Operation} {made : Dispatched}
    (h : made ∈ c.dispatches op) : ∃ b, c.standing = .bound b := by
  have hbound : c.isBound = true := by
    cases op <;> simp_all [dispatches]
  cases hs : c.standing with
  | bound b => exact ⟨b, rfl⟩
  | unbound cause =>
    rw [not_isBound_of_unbound hs] at hbound
    cases hbound

/-- What gets out of an operation is what the call that it makes lets out. -/
theorem follows_of_dispatches {α : Type} {op : Operation} {x : Exposed α} {t : Traced α}
    (idle : c.dispatches op = [] → Goes s none x t)
    (decided : ∀ b made d, c.standing = .bound b → made ∈ c.dispatches op →
      b.Decides c.context made.call d → Goes s (cut? s b made.call d) x t) :
    Follows s (c.Escapes s op) x t := by
  cases hmade : c.dispatches op with
  | nil =>
    refine .of_none (idle hmade) ?_
    rintro q ⟨made, hmem, -⟩
    rw [hmade] at hmem
    cases hmem
  | cons made rest =>
    have hmem : made ∈ c.dispatches op := by
      rw [hmade]
      exact List.mem_cons_self
    obtain ⟨b, hb⟩ := exists_bound_of_dispatches hmem
    obtain ⟨d, hd⟩ := b.exists_decides c.context made.call
    refine (decided b made d hb hmem hd).follows ?_ ?_
    · exact fun q hq => ⟨made, hmem, callEscapes_of_cut? hb hd hq⟩
    · rintro q ⟨made', hmem', hescapes⟩
      obtain ⟨b', d', hb', hd', hcut⟩ := hescapes.exists_decides
      rw [← hcut]
      exact decided b' made' d' hb' hmem' hd'

theorem performExposed_follows (s : Setting) (hc : c.Sound) (op : Operation) :
    Follows s (c.Escapes s op) (c.performExposed s op) (c.perform op) :=
  follows_of_dispatches performExposed_of_idle fun _ _ _ hb hmade hd =>
    performExposed_of_decides hc hb hmade hd

/-- What gets out of a run gets out of its first operation that lets a panic out: the operations
before that one leave the component sound. -/
theorem runExposed_follows (s : Setting) (hc : c.Sound) (ops : List Operation) :
    Follows s (c.RunEscapes s ops) (c.runExposed s ops) (c.run ops) := by
  induction ops generalizing c with
  | nil => exact .of_none (.pure _) fun q hq => hq
  | cons op ops ih =>
    refine (performExposed_follows s hc op).bind fun _ => ?_
    exact (ih (hc.perform op)).bind_left (.pure _)

theorem dropExposed_of_unbound (h : c.isBound = false) :
    Goes s none (c.dropExposed s) c.drop := by
  rw [dropExposed, drop]
  by_cases hd : c.options.closeOnDrop = true
  · rw [if_pos hd, if_pos hd]
    exact closeExposed_of_idle (by simp [dispatches, h])
  · rw [if_neg hd, if_neg hd]
    exact .pure c

theorem dropExposed_follows (s : Setting) (hc : c.Sound) :
    Follows s (c.DropEscapes s) (c.dropExposed s) c.drop := by
  have hclose : Follows s (c.Escapes s .close) (c.closeExposed s) c.close :=
    follows_of_dispatches closeExposed_of_idle fun _ _ _ hb hmade hd =>
      closeExposed_of_decides hc hb hmade hd
  unfold DropEscapes
  rw [dropExposed, drop]
  by_cases hd : c.options.closeOnDrop = true
  · rw [if_pos hd, if_pos hd]
    simpa only [hd, true_and] using hclose
  · rw [if_neg hd, if_neg hd]
    exact .of_none (.pure c) fun q hq => hd hq.1

end Component

/-! ## Building -/

namespace Blueprint

variable {p : Blueprint σ} {c : HostClass σ} {r : HostRun σ} {q : Panic}

/-- A registered class has a constructor that serves, or none. -/
theorem exists_constructs_or (found : p.registry.get? p.typeName = some c) :
    (∃ r, p.Constructs c r) ∨
      (p.config = none ∨ c.constructor? [.node] = none) ∧ c.constructor? [] = none := by
  by_cases without : p.config = none ∨ c.constructor? [.node] = none
  · cases hk : c.constructor? [] with
    | none => exact .inr ⟨without, rfl⟩
    | some k =>
      obtain ⟨make, rfl⟩ := HostClass.plain_of_constructor? hk
      exact .inl ⟨make, .plain found without hk⟩
  · obtain ⟨given, has⟩ := not_or.mp without
    obtain ⟨v, hv⟩ := Option.ne_none_iff_exists'.mp given
    obtain ⟨k, hk⟩ := Option.ne_none_iff_exists'.mp has
    obtain ⟨make, rfl⟩ := HostClass.configured_of_constructor? hk
    exact .inl ⟨make v.copy, .configured found hv hk⟩

/-- Where there is room for the configuration, the building is cut short by the panic of dropping
the one that the constructor has ended with. -/
theorem buildExposed_of_constructs (valid : p.options.isValid = true) (room : p.HasRoom)
    (h : p.Constructs c r) :
    Goes s (s.escape? r.outcome.panic?) (p.buildExposed s) p.build := by
  cases h with
  | @configured make v found given has =>
    refine buildExposed_of_instantiate valid found ?_
    rw [given]
    exact HostClass.instantiateExposed_of_fits has (room v ⟨valid, given, c, _, found, has⟩)
  | plain found without has =>
    refine buildExposed_of_instantiate valid found ?_
    exact HostClass.instantiateExposed_of_without without
      (HostClass.instantiatePlainExposed_of_plain has)

theorem buildExposed_of_full {v : NodeView} (h : p.Copies v) (hfull : v.fits = false) :
    Goes s (some .noRoom) (p.buildExposed s) p.build := by
  obtain ⟨valid, given, c, k, found, has⟩ := h
  refine buildExposed_of_instantiate valid found ?_
  rw [given]
  exact HostClass.instantiateExposed_of_full has hfull

theorem Escapes.goes (h : p.Escapes s q) : Goes s (some q) (p.buildExposed s) p.build := by
  cases h with
  | full copies full => exact buildExposed_of_full copies full
  | dropped valid room constructs panics drops =>
    have hgoes := buildExposed_of_constructs (s := s) valid room constructs
    rw [panics] at hgoes
    rwa [← drops]

theorem buildExposed_follows (s : Setting) (p : Blueprint σ) :
    Follows s (p.Escapes s) (p.buildExposed s) p.build := by
  have hescapes (q : Panic) : p.Escapes s q → Goes s (some q) (p.buildExposed s) p.build :=
    Escapes.goes
  have hidle (h : Goes s none (p.buildExposed s) p.build) :
      Follows s (p.Escapes s) (p.buildExposed s) p.build :=
    h.follows (fun q hq => nomatch hq) hescapes
  by_cases valid : p.options.isValid = true
  swap
  · exact hidle (buildExposed_of_idle (.inl (by simpa using valid)))
  cases found : p.registry.get? p.typeName with
  | none => exact hidle (buildExposed_of_idle (.inr found))
  | some c =>
    by_cases room : p.HasRoom
    · rcases exists_constructs_or found with ⟨r, constructs⟩ | ⟨without, lacks⟩
      · refine (buildExposed_of_constructs valid room constructs).follows ?_ hescapes
        intro q hq
        obtain ⟨panic, hpanic, drops⟩ := Option.bind_eq_some_iff.mp hq
        exact .dropped valid room constructs (Outcome.panic?_eq_some_iff.mp hpanic) drops
      · exact hidle (buildExposed_of_instantiate valid found
          (HostClass.instantiateExposed_of_without without
            (HostClass.instantiatePlainExposed_of_none lacks)))
    · obtain ⟨v, hv⟩ := not_forall.mp room
      obtain ⟨copies, hfits⟩ := Classical.not_imp.mp hv
      have hfull : v.fits = false := by simpa using hfits
      refine (buildExposed_of_full copies hfull).follows ?_ hescapes
      intro q hq
      cases hq
      exact .full copies hfull

/-- A component that was not bound drops without a call, so no panic gets out of its drop. -/
theorem tryBuildExposed_follows (s : Setting) (p : Blueprint σ) :
    Follows s (p.Escapes s) (p.tryBuildExposed s) p.tryBuild := by
  rw [tryBuildExposed, tryBuild]
  refine (buildExposed_follows s p).bind_left ?_
  generalize p.build.value = c
  cases hcause : c.cause? with
  | none => exact .pure _
  | some e =>
    have hbound : c.isBound = false := by
      rw [Component.isBound_eq_isNone, hcause]
      rfl
    exact (Component.dropExposed_of_unbound hbound).bind_left (.pure _)

/-- No check at the boundary fails in the lives of the components of a blueprint, and the panics
that no guard is left for are all that gets out of an operation. -/
structure Faultless (p : Blueprint σ) : Prop where
  build : ∀ s, Follows s (p.Escapes s) (p.buildExposed s) p.build
  tryBuild : ∀ s, Follows s (p.Escapes s) (p.tryBuildExposed s) p.tryBuild
  perform : ∀ s c op, p.Stage c → Follows s (c.Escapes s op) (c.performExposed s op) (c.perform op)
  run : ∀ s c ops, p.Stage c → Follows s (c.RunEscapes s ops) (c.runExposed s ops) (c.run ops)
  drop : ∀ s c, p.Stage c → Follows s (c.DropEscapes s) (c.dropExposed s) c.drop

theorem faultless (p : Blueprint σ) : p.Faultless where
  build s := buildExposed_follows s p
  tryBuild s := tryBuildExposed_follows s p
  perform s _ op h := Component.performExposed_follows s h.sound op
  run s _ ops h := Component.runExposed_follows s h.sound ops
  drop s _ h := Component.dropExposed_follows s h.sound

end Blueprint

end HostCall
