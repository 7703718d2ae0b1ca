import HostCall.Proofs.Boundary.Escapes

/-!
# Exposed operations beside traced ones

The constructor that a class finds for some parameters takes the arguments it is given, a method
that was selected takes the arguments of the call, and a sound binding has an instance of its
class. So no check at the boundary fails, and operations go to their end exposed as they do
otherwise, unless one of the panics that no guard is left for gets out.
-/

namespace HostCall

open Exposed (Goes Follows sure)

variable {σ : Type} {s : Setting} {cut : Option Panic}

/-! ## Places where host code runs -/

namespace HostClass

variable {c : HostClass σ}

theorem constructExposed_plain (s : Setting) (c : HostClass σ) (make : HostRun σ) :
    Goes s (s.escape? make.outcome.panic?) (c.constructExposed s (.plain make) [])
      (c.construct (.plain make) []) :=
  Exposed.guarded_bind_left (.pure _)

theorem constructExposed_configured (s : Setting) (c : HostClass σ) (make : Graph → HostRun σ)
    (g : Graph) :
    Goes s (s.escape? (make g).outcome.panic?) (c.constructExposed s (.configured make) [.node g])
      (c.construct (.configured make) [.node g]) :=
  Exposed.guarded_bind_left (.pure _)

theorem readFieldExposed_goes {i : Instance σ} (hi : i.native = c.native) (f : Field σ) :
    Goes s (s.escape? (f.read i.state).run.outcome.panic?) (c.readFieldExposed s f i)
      (c.readField f i) := by
  have hread := Exposed.guarded_goes s (f.read i.state).run
  rw [Response.contain_run] at hread
  rw [readFieldExposed, readField, if_pos hi, if_pos hi]
  exact hread

theorem callExposed_goes {i : Instance σ} (hi : i.native = c.native) {m : Method σ}
    {args : ArgumentList} (ha : args.length = m.arity) :
    Goes s (s.escape? (m.body i.state args).1.outcome.panic?) (c.callExposed s m i args)
      (c.call m i args) := by
  rw [callExposed, call, if_pos ha, if_pos ha, if_pos hi, if_pos hi]
  exact Exposed.guarded_bind_left (.pure _)

end HostClass

namespace Arguments

variable {evaluator : Evaluator}

theorem evaluateExposed_of_yields {nodes : List NodeView} {values : List Value}
    (h : evaluator.Yields nodes values) (name : String) (index : Nat) :
    Goes s none (evaluateExposed s name evaluator index nodes)
      (evaluate name evaluator index nodes) := by
  induction h generalizing index with
  | nil => exact .pure _
  | @cons node v nodes values ha _ ih =>
    have hrun : (evaluator node).run.outcome = .returned v := by rw [Response.run, ha]
    rw [evaluateExposed, evaluate, ← Response.contain_run]
    refine Exposed.guarded_bind_right (by rw [hrun]; rfl) ?_
    rw [hrun]
    exact (ih (index + 1)).bind_right (.pure _)

theorem evaluateExposed_of_panicsFirst {nodes : List NodeView} {i : Nat} {p : Panic}
    (h : evaluator.PanicsFirst nodes i p) (name : String) (index : Nat) :
    Goes s (s.escape? (some p)) (evaluateExposed s name evaluator index nodes)
      (evaluate name evaluator index nodes) := by
  induction nodes generalizing i index with
  | nil =>
    obtain ⟨⟨node, hi, -⟩, -⟩ := h
    cases hi
  | cons node nodes ih =>
    rw [evaluateExposed, evaluate, ← Response.contain_run]
    cases i with
    | zero =>
      obtain ⟨⟨m, hm, ha⟩, -⟩ := h
      cases Option.some.inj hm
      have hrun : (evaluator node).run.outcome = .panicked p := by rw [Response.run, ha]
      have hpanic : some p = (evaluator node).run.outcome.panic? := by
        rw [hrun]
        rfl
      rw [hpanic]
      refine Exposed.guarded_bind_left ?_
      rw [hrun]
      exact .pure _
    | succ i =>
      -- the first node does not panic, since a later one is the first to do so
      cases ha : (evaluator node).answer with
      | error q => exact absurd ⟨node, rfl, ha⟩ (h.2 0 (by omega) q)
      | ok v =>
        have htail : evaluator.PanicsFirst nodes i p :=
          ⟨h.1, fun j hj q hq => h.2 (j + 1) (by omega) q hq⟩
        have hrun : (evaluator node).run.outcome = .returned v := by rw [Response.run, ha]
        refine Exposed.guarded_bind_right (by rw [hrun]; rfl) ?_
        rw [hrun]
        exact (ih htail (index + 1)).bind_left (.pure _)

section OfCall

variable {call : NodeView} {maxArgs : Option Nat}

theorem ofCallExposed_of_exceeds {max : Nat} (h : call.Exceeds maxArgs max) :
    Goes s none (ofCallExposed s call evaluator maxArgs) (ofCall call evaluator maxArgs) := by
  rw [ofCallExposed, ofCall, filter_of_exceeds h]
  exact .pure _

theorem ofCallExposed_of_yields (hw : call.Within maxArgs) {values : List Value}
    (h : evaluator.Yields call.children values) :
    Goes s none (ofCallExposed s call evaluator maxArgs) (ofCall call evaluator maxArgs) := by
  rw [ofCallExposed, ofCall, filter_of_within hw]
  refine (evaluateExposed_of_yields h call.name 0).bind_right ?_
  rw [(evaluate_of_yields h call.name 0).1]
  exact .sure_bind (.pure _)

theorem ofCallExposed_of_panicsFirst (hw : call.Within maxArgs) {i : Nat} {p : Panic}
    (h : evaluator.PanicsFirst call.children i p) :
    Goes s (s.escape? (some p)) (ofCallExposed s call evaluator maxArgs)
      (ofCall call evaluator maxArgs) := by
  rw [ofCallExposed, ofCall, filter_of_within hw]
  refine (evaluateExposed_of_panicsFirst h call.name 0).bind_left ?_
  rw [(evaluate_of_panicsFirst h call.name 0).1]
  exact .pure _

end OfCall

end Arguments

namespace Binding

variable {b : Binding σ} {ctx : CallContext} {call : NodeView}

theorem readFieldExposed_goes (hb : b.Sound) (f : Field σ) :
    Goes s (s.escape? (f.read b.receiver.state).run.outcome.panic?) (b.readFieldExposed s f)
      (b.readField f) := by
  rw [readFieldExposed, readField]
  exact .sure_bind ((HostClass.readFieldExposed_goes hb.native_eq f).bind_left (.pure _))

theorem callMethodExposed_goes (hb : b.Sound) {m : Method σ} {args : Arguments}
    (ha : m.arity = args.size) (fit : Fit) :
    Goes s (s.escape? (m.body b.receiver.state args.values).1.outcome.panic?)
      (b.callMethodExposed s m fit args) (b.callMethod m fit args) := by
  rw [callMethodExposed, callMethod]
  refine (HostClass.callExposed_goes hb.native_eq ha.symm).bind_left ?_
  generalize (b.owner.call m b.receiver args.values).value = ended
  obtain ⟨result, receiver⟩ := ended
  cases result with
  | error e => exact .pure _
  | ok v => exact .sure_bind (.pure _)

private theorem dispatchMethodExposed_of_error {e : CallError}
    (h : Goes s cut (Arguments.ofCallExposed s call ctx.evaluator ctx.options.maxArgs)
      (Arguments.ofCall call ctx.evaluator ctx.options.maxArgs))
    (he : (Arguments.ofCall call ctx.evaluator ctx.options.maxArgs).value = .error e) :
    Goes s cut (b.dispatchMethodExposed s ctx call) (b.dispatchMethod ctx call) := by
  rw [dispatchMethodExposed, dispatchMethod]
  refine h.bind_left ?_
  rw [he]
  exact .pure _

private theorem dispatchMethodExposed_of_ready {values : List Value}
    (h : b.Ready ctx call values)
    (hafter : Goes s cut
      (match Method.select ctx.hierarchy b.methods call.name (values.map Value.callType) with
      | none =>
        pure (.error (.noSuchMethod call.name (values.map Value.callType) b.owner.name), b)
      | some (m, fit) => b.callMethodExposed s m fit ⟨values⟩)
      (match Method.select ctx.hierarchy b.methods call.name (values.map Value.callType) with
      | none =>
        pure (.error (.noSuchMethod call.name (values.map Value.callType) b.owner.name), b)
      | some (m, fit) => b.callMethod m fit ⟨values⟩)) :
    Goes s cut (b.dispatchMethodExposed s ctx call) (b.dispatchMethod ctx call) := by
  obtain ⟨-, within, yields⟩ := h
  rw [dispatchMethodExposed, dispatchMethod]
  refine (Arguments.ofCallExposed_of_yields within yields).bind_right ?_
  rw [(Arguments.ofCall_of_yields within yields).1]
  exact hafter

/-- What can cut a call short is the panic of dropping the one that it has met. -/
theorem dispatchExposed_of_decides (hb : b.Sound) {d : Decision σ} (h : b.Decides ctx call d) :
    Goes s (s.escape? (d.panic? b)) (b.dispatchExposed s ctx call) (b.dispatch ctx call) := by
  cases h with
  | @field f answers =>
    rw [dispatchExposed, dispatch, (fieldFor?_eq_some_iff hb).mpr answers]
    exact (readFieldExposed_goes hb f).bind_left (.pure _)
  | tooMany unread exceeds =>
    rw [dispatchExposed, dispatch, fieldFor?_eq_none hb unread]
    exact dispatchMethodExposed_of_error (Arguments.ofCallExposed_of_exceeds exceeds)
      (Arguments.ofCall_of_exceeds exceeds ctx.evaluator).1
  | panicked unread within panics =>
    rw [dispatchExposed, dispatch, fieldFor?_eq_none hb unread]
    exact dispatchMethodExposed_of_error (Arguments.ofCallExposed_of_panicsFirst within panics)
      (Arguments.ofCall_of_panicsFirst within panics).1
  | unmatched ready untaken =>
    rw [dispatchExposed, dispatch, fieldFor?_eq_none hb ready.1]
    refine dispatchMethodExposed_of_ready ready ?_
    rw [hb.methods_eq, Method.select_eq_none_iff.mpr untaken]
    exact .pure _
  | @method m values resolves =>
    obtain ⟨ready, fit, chosen⟩ := resolves
    have harity : m.arity = Arguments.size ⟨values⟩ :=
      chosen.takes.2.arity_eq.trans (List.length_map _)
    rw [dispatchExposed, dispatch, fieldFor?_eq_none hb ready.1]
    refine dispatchMethodExposed_of_ready ready ?_
    rw [hb.methods_eq, Method.select_eq_some_iff.mpr chosen]
    exact callMethodExposed_goes hb harity fit

end Binding

/-! ## Components -/

namespace Component

variable {c : Component σ} {b : Binding σ}

/-- What cuts a call short that comes to an end: the lack of room for its copy, or the panic of
dropping the one that it has met. -/
def cut? (s : Setting) (b : Binding σ) (call : NodeView) (d : Decision σ) : Option Panic :=
  if s.records .debug = true ∧ call.fits = false then some .noRoom else s.escape? (d.panic? b)

/-- A call that is copied has room for that, or has not. -/
theorem full_or_roomy (s : Setting) (call : NodeView) :
    (s.records .debug = true ∧ call.fits = false) ∨ Roomy s call := by
  by_cases hfull : s.records .debug = true ∧ call.fits = false
  · exact .inl hfull
  · exact .inr fun hrecorded => eq_true_of_ne_false fun hf => hfull ⟨hrecorded, hf⟩

theorem cut?_of_full {call : NodeView} {d : Decision σ} (hrecorded : s.records .debug = true)
    (hfull : call.fits = false) : cut? s b call d = some .noRoom :=
  if_pos ⟨hrecorded, hfull⟩

theorem cut?_of_roomy {call : NodeView} {d : Decision σ} (hroomy : Roomy s call) :
    cut? s b call d = s.escape? (d.panic? b) := by
  refine if_neg fun h => ?_
  rw [hroomy h.1] at h
  cases h.2

theorem answerExposed_of_decides (hc : c.Sound) (hb : c.standing = .bound b) {call : NodeView}
    {d : Decision σ} (h : b.Decides c.context call d) :
    Goes s (cut? s b call d) (c.answerExposed s call) (c.answer call) := by
  have hdispatch := Binding.dispatchExposed_of_decides (s := s) (hc b hb) h
  rw [answerExposed, answer, hb]
  rcases full_or_roomy s call with ⟨hrecorded, hfull⟩ | hroomy
  · rw [cut?_of_full hrecorded hfull]
    simp only [if_pos hrecorded]
    exact Exposed.copy_bind_of_full hfull _ _
  · rw [cut?_of_roomy hroomy]
    by_cases hrecorded : s.records .debug = true
    · simp only [if_pos hrecorded]
      refine Exposed.copy_bind_of_fits (hroomy hrecorded) (.sure_bind ?_)
      exact hdispatch.bind_left (.pure _)
    · simp only [if_neg hrecorded]
      exact .pure_bind (.sure_bind (hdispatch.bind_left (.pure _)))

private theorem exists_unbound (h : c.isBound = false) :
    ∃ cause, c.standing = .unbound cause := by
  cases hs : c.standing with
  | unbound cause => exact ⟨cause, rfl⟩
  | bound b =>
    rw [isBound_of_bound hs] at h
    cases h

theorem answerExposed_of_unbound {cause : BindError} (hu : c.standing = .unbound cause)
    (call : NodeView) : Goes s none (c.answerExposed s call) (c.answer call) := by
  rw [answerExposed, answer, hu]
  exact .pure _

section

variable {call : NodeView}

theorem invokeExposed_goes (h : Goes s cut (c.answerExposed s call) (c.answer call)) :
    Goes s cut (c.invokeExposed s call) (c.invoke call) := by
  rw [invokeExposed, invoke]
  refine h.bind_left ?_
  generalize (c.answer call).value = answered
  obtain ⟨result, d⟩ := answered
  cases result with
  | ok v => exact .pure _
  | error e => exact .sure_bind (.pure _)

theorem execExposed_goes (h : Goes s cut (c.answerExposed s call) (c.answer call)) :
    Goes s cut (c.execExposed s call) (c.exec call) := by
  rw [execExposed, exec]
  refine (invokeExposed_goes h).bind_left ?_
  generalize (c.invoke call).value = invoked
  obtain ⟨result, d⟩ := invoked
  cases result <;> exact .pure _

end

theorem closeExposed_of_bound (hb : c.standing = .bound b) (ho : c.closed = false)
    (h : Goes s cut (c.shut.answerExposed s c.closeCall) (c.shut.answer c.closeCall)) :
    Goes s cut (c.closeExposed s) c.close := by
  have hopen : ¬ c.closed = true := by simp [ho]
  have hbound : ¬ (!c.shut.isBound) = true := by simp [shut, isBound, binding?, hb]
  rw [closeExposed, close, if_neg hopen, if_neg hopen]
  change Goes s cut (if (!c.shut.isBound) = true then _ else _)
    (if (!c.shut.isBound) = true then _ else _)
  rw [if_neg hbound, if_neg hbound]
  refine Goes.bind_left h ?_
  generalize Traced.value _ = answered
  obtain ⟨result, d⟩ := answered
  -- what the closing call came to decides no more than what is told of it
  rcases result with e | v
  · cases e <;> exact .sure_bind (.pure _)
  · exact .sure_bind (.pure _)

/-- A closing that makes no call goes to its end. -/
theorem closeExposed_of_idle (h : c.dispatches .close = []) :
    Goes s none (c.closeExposed s) c.close := by
  rw [closeExposed, close]
  by_cases hclosed : c.closed = true
  · rw [if_pos hclosed, if_pos hclosed]
    exact .pure _
  · have hunbound : (!c.shut.isBound) = true := by
      change (!c.isBound) = true
      simpa [dispatches, hclosed] using h
    rw [if_neg hclosed, if_neg hclosed]
    change Goes s none (if (!c.shut.isBound) = true then _ else _)
      (if (!c.shut.isBound) = true then _ else _)
    rw [if_pos hunbound, if_pos hunbound]
    exact .sure_bind (.pure _)

theorem closeExposed_of_decides (hc : c.Sound) (hb : c.standing = .bound b) {made : Dispatched}
    (hmade : made ∈ c.dispatches .close) {d : Decision σ} (h : b.Decides c.context made.call d) :
    Goes s (cut? s b made.call d) (c.closeExposed s) c.close := by
  rw [call_of_mem_dispatches hmade] at h ⊢
  have hanswer := answerExposed_of_decides (s := s) (c := c.shut) hc.shut hb h
  exact closeExposed_of_bound hb (closed_of_mem_dispatches hmade) hanswer

/-- An operation is cut short where the call that it makes is. -/
theorem performExposed_of_decides (hc : c.Sound) (hb : c.standing = .bound b) {op : Operation}
    {made : Dispatched} (hmade : made ∈ c.dispatches op) {d : Decision σ}
    (h : b.Decides c.context made.call d) :
    Goes s (cut? s b made.call d) (c.performExposed s op) (c.perform op) := by
  cases op with
  | invoke call =>
    rw [call_of_mem_dispatches hmade] at h ⊢
    rw [performExposed, perform]
    exact (invokeExposed_goes (answerExposed_of_decides hc hb h)).bind_left (.pure _)
  | exec call =>
    rw [call_of_mem_dispatches hmade] at h ⊢
    rw [performExposed, perform]
    exact (execExposed_goes (answerExposed_of_decides hc hb h)).bind_left (.pure _)
  | close =>
    rw [performExposed, perform]
    exact (closeExposed_of_decides hc hb hmade h).bind_left (.pure _)

theorem performExposed_of_idle {op : Operation} (h : c.dispatches op = []) :
    Goes s none (c.performExposed s op) (c.perform op) := by
  cases op with
  | invoke call =>
    obtain ⟨cause, hu⟩ := exists_unbound (by simpa [dispatches] using h)
    rw [performExposed, perform]
    exact (invokeExposed_goes (answerExposed_of_unbound hu call)).bind_left (.pure _)
  | exec call =>
    obtain ⟨cause, hu⟩ := exists_unbound (by simpa [dispatches] using h)
    rw [performExposed, perform]
    exact (execExposed_goes (answerExposed_of_unbound hu call)).bind_left (.pure _)
  | close =>
    rw [performExposed, perform]
    exact (closeExposed_of_idle h).bind_left (.pure _)

end Component

/-! ## Building -/

namespace HostClass

variable {c : HostClass σ}

theorem instantiatePlainExposed_of_plain {make : HostRun σ}
    (hk : c.constructor? [] = some (.plain make)) :
    Goes s (s.escape? make.outcome.panic?) (c.instantiatePlainExposed s) c.instantiatePlain := by
  rw [instantiatePlainExposed, instantiatePlain, hk]
  exact (constructExposed_plain s c make).bind_left (.pure _)

theorem instantiatePlainExposed_of_none (hk : c.constructor? [] = none) :
    Goes s none (c.instantiatePlainExposed s) c.instantiatePlain := by
  rw [instantiatePlainExposed, instantiatePlain, hk]
  exact .pure _

/-- The plain constructor serves without a configuration, and where none takes one. -/
theorem instantiateExposed_of_without {config : Option NodeView}
    (without : config = none ∨ c.constructor? [.node] = none)
    (h : Goes s cut (c.instantiatePlainExposed s) c.instantiatePlain) :
    Goes s cut (c.instantiateExposed s config) (c.instantiate config) := by
  cases config with
  | none => exact h
  | some v =>
    have hno := without.resolve_left (by simp)
    rw [instantiateExposed, instantiate, hno]
    exact .sure_bind h

/-- A configuration goes to a constructor that takes a node, as a node. -/
theorem instantiateExposed_of_fits {v : NodeView} {make : Graph → HostRun σ}
    (has : c.constructor? [.node] = some (.configured make)) (hfits : v.fits = true) :
    Goes s (s.escape? (make v.copy).outcome.panic?) (c.instantiateExposed s (some v))
      (c.instantiate (some v)) := by
  rw [instantiateExposed, instantiate, has]
  refine .sure_bind (Exposed.copy_bind_of_fits hfits ?_)
  exact (constructExposed_configured s c make v.copy).bind_left (.pure _)

theorem instantiateExposed_of_full {v : NodeView} {k : Constructor σ}
    (has : c.constructor? [.node] = some k) (hfull : v.fits = false) :
    Goes s (some .noRoom) (c.instantiateExposed s (some v)) (c.instantiate (some v)) := by
  rw [instantiateExposed, instantiate, has]
  exact .sure_bind (Exposed.copy_bind_of_full hfull _ _)

end HostClass

namespace Blueprint

variable {p : Blueprint σ} {c : HostClass σ}

/-- The building is cut short where the making of the instance is. -/
theorem buildExposed_of_instantiate (valid : p.options.isValid = true)
    (found : p.registry.get? p.typeName = some c)
    (h : Goes s cut (c.instantiateExposed s p.config) (c.instantiate p.config)) :
    Goes s cut (p.buildExposed s) p.build := by
  have hbind : Goes s cut (p.bindExposed s) p.bind := by
    rw [bindExposed, bind, Options.validate, if_pos valid]
    simp only [Registry.bindExposed, Registry.bind, found]
    refine h.bind_left ?_
    cases (c.instantiate p.config).value with
    | error e => exact .pure _
    | ok i => exact .sure_bind (.pure _)
  rw [buildExposed, build]
  refine hbind.bind_left ?_
  cases p.bind.value with
  | ok b => exact .pure _
  | error e => exact .sure_bind (.pure _)

/-- The building that makes no instance goes to its end. -/
theorem buildExposed_of_idle
    (h : p.options.isValid = false ∨ p.registry.get? p.typeName = none) :
    Goes s none (p.buildExposed s) p.build := by
  have hbind : ∃ e, p.bindExposed s = pure (.error e) ∧ p.bind = pure (.error e) := by
    rw [bindExposed, bind, Options.validate]
    by_cases valid : p.options.isValid = true
    · have unknown := h.resolve_left (by simp [valid])
      simp only [if_pos valid, Registry.bindExposed, Registry.bind, unknown]
      exact ⟨_, rfl, rfl⟩
    · simp only [if_neg valid]
      exact ⟨_, rfl, rfl⟩
  obtain ⟨e, hexposed, htraced⟩ := hbind
  rw [buildExposed, build, hexposed, htraced]
  exact (Goes.pure _).bind_right (.sure_bind (.pure _))

end Blueprint

end HostCall
