import HostCall.Proofs.Component.Answer
import HostCall.Proofs.Component.Life
import Mathlib.Data.List.Nodup

/-!
# What is reported

Reports come from three places: a building that fails to bind, a request that fails, and a closing
whose member fails. All else is silent. What a sink gets in a life is the diagnostics that are due,
in their order, and a ledger hands them over once each, however often it is emptied meanwhile.
-/

namespace HostCall

variable {σ : Type}

def Note.report? : Note → Option (Sink × Diagnostic)
  | .report sink d => some (sink, d)
  | _ => none

namespace Traced

variable {α β : Type}

def reports (t : Traced α) : List (Sink × Diagnostic) := t.notes.filterMap Note.report?

@[simp] theorem reports_pure (a : α) : (pure a : Traced α).reports = [] := rfl

@[simp] theorem reports_bind (t : Traced α) (f : α → Traced β) :
    (t >>= f).reports = t.reports ++ (f t.value).reports := by
  rw [reports, notes_bind, List.filterMap_append]
  rfl

@[simp] theorem reports_log (level : Level) (text : String) : (log level text).reports = [] := rfl

def Silent (t : Traced α) : Prop := t.reports = []

theorem Silent.pure (a : α) : (pure a : Traced α).Silent := rfl

theorem Silent.bind {t : Traced α} {f : α → Traced β} (h : t.Silent) (h' : ∀ a, (f a).Silent) :
    (t >>= f).Silent := by
  rw [Silent, reports_bind, h, h']
  rfl

theorem silent_log (level : Level) (text : String) : (log level text).Silent := rfl

theorem silent_events (texts : List String) : (events texts).Silent := by
  induction texts with
  | nil => rfl
  | cons text texts ih => exact ih

end Traced

open Traced (silent_log silent_events)

@[simp] theorem Sink.reports_report (sink : Sink) (d : Diagnostic) :
    (sink.report d).reports = [(sink, d)] := by
  cases sink <;> rfl

/-! ## What is silent -/

namespace HostClass

theorem silent_construct (c : HostClass σ) (k : Constructor σ) (args : ArgumentList) :
    (c.construct k args).Silent := by
  rw [construct]
  split
  · exact .bind (silent_events _) fun _ => .pure _
  · exact .pure _

theorem silent_readField (c : HostClass σ) (f : Field σ) (i : Instance σ) :
    (c.readField f i).Silent := by
  rw [readField]
  split
  · exact .bind (silent_events _) fun _ => .pure _
  · exact .pure _

theorem silent_call (c : HostClass σ) (m : Method σ) (i : Instance σ) (args : ArgumentList) :
    (c.call m i args).Silent := by
  rw [call]
  split
  · split
    · exact .bind (silent_events _) fun _ => .pure _
    · exact .pure _
  · exact .pure _

theorem silent_instantiatePlain (c : HostClass σ) : c.instantiatePlain.Silent := by
  rw [instantiatePlain]
  split
  · exact .pure _
  · exact .bind (c.silent_construct _ _) fun _ => .pure _

theorem silent_instantiate (c : HostClass σ) (config : Option NodeView) :
    (c.instantiate config).Silent := by
  cases config with
  | none => exact c.silent_instantiatePlain
  | some config =>
    rw [instantiate]
    split
    · exact .bind (silent_log _ _) fun _ => .bind (c.silent_construct _ _) fun _ => .pure _
    · exact .bind (silent_log _ _) fun _ => c.silent_instantiatePlain

end HostClass

theorem Registry.silent_bind (r : Registry σ) (typeName : String) (config : Option NodeView) :
    (r.bind typeName config).Silent := by
  rw [bind]
  split
  · exact .pure _
  · refine .bind (HostClass.silent_instantiate _ _) fun made => ?_
    cases made with
    | error e => exact .pure _
    | ok i => exact .bind (silent_log _ _) fun _ => .pure _

theorem Blueprint.silent_bind (p : Blueprint σ) : p.bind.Silent := by
  rw [bind]
  split
  · exact .pure _
  · exact p.registry.silent_bind _ _

namespace Arguments

private theorem silent_describe (name : String) (index : Nat) (values : List Value) :
    (Traced.leave (describe name index values)).Silent := by
  induction values generalizing index with
  | nil => rfl
  | cons v values ih => exact ih (index + 1)

theorem silent_evaluate (name : String) (evaluator : Evaluator) (index : Nat)
    (nodes : List NodeView) : (evaluate name evaluator index nodes).Silent := by
  induction nodes generalizing index with
  | nil => exact .pure _
  | cons node nodes ih =>
    refine .bind (silent_events _) fun _ => ?_
    cases (evaluator node).contain with
    | error e => exact .pure _
    | ok v => exact .bind (ih (index + 1)) fun _ => .pure _

theorem silent_ofCall (call : NodeView) (evaluator : Evaluator) (maxArgs : Option Nat) :
    (ofCall call evaluator maxArgs).Silent := by
  rw [ofCall]
  split
  · exact .pure _
  · refine .bind (silent_evaluate _ _ _ _) fun evaluated => ?_
    cases evaluated with
    | error e => exact .pure _
    | ok values => exact .bind (silent_describe _ _ _) fun _ => .pure _

end Arguments

namespace Binding

theorem silent_readField (b : Binding σ) (f : Field σ) : (b.readField f).Silent :=
  .bind (silent_log _ _) fun _ => .bind (b.owner.silent_readField _ _) fun _ => .pure _

theorem silent_callMethod (b : Binding σ) (m : Method σ) (fit : Fit) (args : Arguments) :
    (b.callMethod m fit args).Silent := by
  refine .bind (b.owner.silent_call _ _ _) fun ended => ?_
  obtain ⟨result, receiver⟩ := ended
  cases result with
  | ok v => exact .bind (silent_log _ _) fun _ => .pure _
  | error e => exact .pure _

theorem silent_dispatchMethod (b : Binding σ) (ctx : CallContext) (call : NodeView) :
    (b.dispatchMethod ctx call).Silent := by
  refine .bind (Arguments.silent_ofCall _ _ _) fun evaluated => ?_
  cases evaluated with
  | error e => exact .pure _
  | ok args =>
    dsimp only
    split
    · exact .pure _
    · exact b.silent_callMethod _ _ _

theorem silent_dispatch (b : Binding σ) (ctx : CallContext) (call : NodeView) :
    (b.dispatch ctx call).Silent := by
  rw [dispatch]
  split
  · exact .bind (b.silent_readField _) fun _ => .pure _
  · exact b.silent_dispatchMethod _ _

end Binding

namespace Component

theorem silent_answer (c : Component σ) (call : NodeView) : (c.answer call).Silent := by
  rw [answer]
  split
  · exact .pure _
  · exact .bind (silent_log _ _) fun _ => .bind (Binding.silent_dispatch _ _ _) fun _ => .pure _

/-- A request reports the failure that it answers, if it answers one. -/
theorem reports_invoke (c : Component σ) (call : NodeView) :
    (c.invoke call).reports =
      match (c.invoke call).value.1 with
      | .ok _ => []
      | .error e => [(c.sink, e.diagnostic)] := by
  have hsink := (c.kin_answer call).sink_eq
  rw [(c.invoke_eq_answer call).1, invoke, Traced.reports_bind, c.silent_answer call]
  generalize (c.answer call).value = answered at hsink
  obtain ⟨result, d⟩ := answered
  cases result with
  | ok v => rfl
  | error e =>
    have hd : d.sink = c.sink := hsink
    simp only [Traced.reports_bind, Sink.reports_report, Traced.reports_pure, hd,
      List.append_nil, List.nil_append]

theorem reports_exec (c : Component σ) (call : NodeView) :
    (c.exec call).reports = (c.invoke call).reports := by
  rw [exec, Traced.reports_bind]
  generalize (c.invoke call).value = invoked
  obtain ⟨result, d⟩ := invoked
  cases result <;> exact List.append_nil _

/-- An exec that fails answers the message of the failure. -/
theorem exec_of_error {c : Component σ} {call : NodeView} {e : CallError}
    (h : (c.invoke call).value.1 = .error e) : (c.exec call).value.1 = .text e.message := by
  rw [exec, Traced.value_bind]
  generalize (c.invoke call).value = invoked at h
  obtain ⟨result, d⟩ := invoked
  cases h
  rfl

end Component

/-! ## What is due -/

/-- What the member that a closing calls comes to, if there is one: a field that bears the name, or
else a method that takes no arguments. -/
def Binding.closing? (b : Binding σ) (o : Options) : Option (Except CallError Value) :=
  match b.owner.fields.find? fun f => o.fieldAccess && f.name == o.closeMethod with
  | some f => some (b.fieldReply f)
  | none =>
    (b.owner.methods.find? fun m => m.name == o.closeMethod && m.params == []).map
      fun m => b.methodReply m []

namespace Component

/-- The diagnostics that are due for a closing. -/
def dueClosing (c : Component σ) : List Diagnostic :=
  match c.closed, c.standing with
  | false, .bound b =>
    match b.closing? c.options with
    | some (.error e) => [⟨.warning, .invocation, e.message⟩]
    | _ => []
  | _, _ => []

def due (c : Component σ) : Operation → List Diagnostic
  | .invoke call | .exec call =>
    match (c.invoke call).value.1 with
    | .ok _ => []
    | .error e => [⟨if e.kind = .unusable then .error else .warning, e.kind, e.message⟩]
  | .close => c.dueClosing

/-- The diagnostics that are due for operations, in order. -/
def dues (c : Component σ) : List Operation → List Diagnostic
  | [] => []
  | op :: ops => c.due op ++ (c.perform op).value.2.dues ops

def dueDrop (c : Component σ) : List Diagnostic :=
  if c.options.closeOnDrop then c.dueClosing else []

end Component

namespace Blueprint

def dueBuild (p : Blueprint σ) : List Diagnostic :=
  match p.build.value.cause? with
  | none => []
  | some cause => [⟨.error, .construction, cause.message⟩]

/-- The diagnostics that are due in a life, in order. -/
def dues (p : Blueprint σ) (ops : List Operation) : List Diagnostic :=
  p.dueBuild ++ (p.build.value.dues ops ++ (p.build.value.run ops).value.2.dueDrop)

end Blueprint

section Closing

variable {c : Component σ} {b : Binding σ}

private theorem find?_eq_some_of_unique {α : Type} {p : α → Bool} {xs : List α} {a : α}
    (ha : a ∈ xs) (hp : p a = true) (hu : ∀ x ∈ xs, p x = true → x = a) :
    xs.find? p = some a := by
  cases hf : xs.find? p with
  | none => exact absurd hp (List.find?_eq_none.mp hf a ha)
  | some x => rw [hu x (List.mem_of_find?_eq_some hf) (List.find?_some hf)]

namespace Binding

theorem closing?_of_shadows {o : Options} {f : Field σ} (h : b.Shadows o f) :
    b.closing? o = some (b.fieldReply f) := by
  obtain ⟨hon, hf, hn⟩ := h
  have hfind : (b.owner.fields.find? fun f => o.fieldAccess && f.name == o.closeMethod) =
      some f := by
    refine find?_eq_some_of_unique hf (by simp [hon, hn]) ?_
    intro g hg hp
    have hname : g.name = f.name := by
      rw [hn]
      exact eq_of_beq (Bool.and_eq_true_iff.mp hp).2
    exact List.inj_on_of_nodup_map b.owner.fields_distinct hg hf hname
  rw [closing?, hfind]

theorem kind_of_closing? {o : Options} {e : CallError} (h : b.closing? o = some (.error e)) :
    e.kind = .invocation := by
  rw [closing?] at h
  split at h
  · exact kind_of_fieldReply (Option.some.inj h)
  · obtain ⟨m, -, hm⟩ := Option.map_eq_some_iff.mp h
    exact kind_of_methodReply hm

private theorem find?_of_not_shadows {o : Options} (h : ∀ f, ¬ b.Shadows o f) :
    (b.owner.fields.find? fun f => o.fieldAccess && f.name == o.closeMethod) = none := by
  rw [List.find?_eq_none]
  intro f hf hp
  obtain ⟨hon, hn⟩ := Bool.and_eq_true_iff.mp hp
  exact h f ⟨hon, hf, eq_of_beq hn⟩

theorem closing?_of_declares {o : Options} (h : ∀ f, ¬ b.Shadows o f) {m : Method σ}
    (hm : b.Declares o m) : b.closing? o = some (b.methodReply m []) := by
  obtain ⟨hmem, hn, hparams⟩ := hm
  have hfind : (b.owner.methods.find? fun m => m.name == o.closeMethod && m.params == []) =
      some m := by
    refine find?_eq_some_of_unique hmem (by simp [hn, hparams]) ?_
    intro k hk hp
    obtain ⟨hkn, hkp⟩ := Bool.and_eq_true_iff.mp hp
    have hkey : (k.name, k.params) = (m.name, m.params) := by
      rw [hn, hparams, eq_of_beq hkn, eq_of_beq hkp]
    exact List.inj_on_of_nodup_map b.owner.methods_distinct hk hmem hkey
  rw [closing?, find?_of_not_shadows h, hfind]
  rfl

theorem closing?_of_not_declares {o : Options} (h : ∀ f, ¬ b.Shadows o f)
    (hm : ∀ m, ¬ b.Declares o m) : b.closing? o = none := by
  have hfind : (b.owner.methods.find? fun m => m.name == o.closeMethod && m.params == []) =
      none := by
    rw [List.find?_eq_none]
    intro m hmem hp
    obtain ⟨hn, hparams⟩ := Bool.and_eq_true_iff.mp hp
    exact hm m ⟨hmem, eq_of_beq hn, eq_of_beq hparams⟩
  rw [closing?, find?_of_not_shadows h, hfind]
  rfl

end Binding

namespace Component

private theorem values_of_yields {evaluator : Evaluator} {values : List Value}
    (h : evaluator.Yields c.closeCall.children values) : values = [] := by
  have hnil : evaluator.Yields [] values := h
  cases hnil
  rfl

/-- A closing call runs the member that it is meant for, or there is none. No argument can be too
many and none can fail, since there is none. -/
theorem closing_of_decides {d : Decision σ} (h : b.Decides c.context c.closeCall d) :
    b.closing? c.options = some (d.reply b c.closeCall) ∨
      (d = .unmatched [] ∧ b.closing? c.options = none) := by
  have hshadow (hu : b.Unread c.context c.closeCall) (f : Field σ) :
      ¬ b.Shadows c.options f := fun hf => hu f (fieldAnswers_closeCall_iff.mpr hf)
  cases h with
  | field answers =>
    exact .inl (Binding.closing?_of_shadows (fieldAnswers_closeCall_iff.mp answers))
  | tooMany unread exceeds => exact absurd exceeds.2 (Nat.not_lt_zero _)
  | panicked unread within panics =>
    obtain ⟨⟨node, hnode, -⟩, -⟩ := panics
    cases hnode
  | unmatched ready untaken =>
    obtain ⟨unread, -, yields⟩ := ready
    obtain rfl := values_of_yields yields
    refine .inr ⟨rfl, Binding.closing?_of_not_declares (hshadow unread) ?_⟩
    intro m hm
    obtain ⟨hmem, hn, hparams⟩ := hm
    have hhas : m.Has c.closeCall.name [] := ⟨hn, hparams⟩
    exact untaken m hmem (hhas.takes _)
  | @method m values resolves =>
    obtain ⟨⟨unread, -, yields⟩, fit, chosen⟩ := resolves
    obtain rfl := values_of_yields yields
    have htakes := chosen.takes
    have hparams : m.params = [] := List.length_eq_zero_iff.mp htakes.2.arity_eq
    exact .inl (Binding.closing?_of_declares (hshadow unread) ⟨htakes.1, htakes.2.1, hparams⟩)

private theorem reports_close_of_bound (hb : c.standing = .bound b) (ho : c.closed = false) :
    c.close.reports =
      match (c.shut.answer c.closeCall).value.1 with
      | .ok _ | .error (.noSuchMethod ..) => []
      | .error e => [(c.sink, { e.diagnostic with severity := .warning })] := by
  have hsilent := c.shut.silent_answer c.closeCall
  have hsink := (c.kin_shut.trans (c.shut.kin_answer c.closeCall)).sink_eq
  rw [shut, closeCall] at hsilent hsink ⊢
  rw [close, if_neg (by simp [ho]), if_neg (by simp [isBound, binding?, hb]), Traced.reports_bind,
    hsilent, List.nil_append]
  generalize Traced.value _ = answered at hsink ⊢
  obtain ⟨result, d⟩ := answered
  have hd : d.sink = c.sink := hsink
  rcases result with e | v
  · cases e <;> simp only [Traced.reports_bind, Sink.reports_report, Traced.reports_log,
      Traced.reports_pure, hd, List.append_nil]
  · rfl

/-- A closing reports what is due for it. -/
theorem reports_close (hc : c.Sound) : c.close.reports = c.dueClosing.map (c.sink, ·) := by
  cases ho : c.closed with
  | true =>
    rw [close_of_closed ho, dueClosing, ho]
    rfl
  | false =>
    cases hs : c.standing with
    | unbound cause =>
      rw [close, if_neg (by simp [ho]), if_pos (by simp [isBound, binding?, hs]), dueClosing, ho, hs]
      rfl
    | bound b =>
      obtain ⟨d, hd⟩ := b.exists_decides c.context c.closeCall
      have hreply := congrArg Prod.fst (answer_of_decides (c := c.shut) hc.shut hs hd).1
      rw [reports_close_of_bound hs ho, hreply, dueClosing, ho, hs]
      rcases closing_of_decides hd with hsome | ⟨rfl, hnone⟩
      · simp only [hsome]
        cases hr : d.reply b c.closeCall with
        | ok v => rfl
        | error e =>
          rw [hr] at hsome
          -- of all errors, only one of a member can come from a member
          cases e with
          | invocation signature cause => rfl
          | _ => cases Binding.kind_of_closing? hsome
      · simp only [hnone]
        rfl

theorem reports_drop (hc : c.Sound) : c.drop.reports = c.dueDrop.map (c.sink, ·) := by
  rw [drop, dueDrop]
  by_cases hd : c.options.closeOnDrop = true
  · rw [if_pos hd, if_pos hd, reports_close hc]
  · rw [if_neg hd, if_neg hd]
    rfl

theorem dueDrop_of_cause? {cause : BindError} (h : c.cause? = some cause) : c.dueDrop = [] := by
  have hclosing : c.dueClosing = [] := by
    rw [cause?] at h
    cases hs : c.standing with
    | bound b =>
      rw [hs] at h
      cases h
    | unbound cause =>
      rw [dueClosing, hs]
      cases c.closed <;> rfl
  rw [dueDrop, hclosing, ite_self]

theorem reports_perform (hc : c.Sound) (op : Operation) :
    (c.perform op).reports = (c.due op).map (c.sink, ·) := by
  cases op with
  | invoke call =>
    have hreports : (c.perform (.invoke call)).reports = (c.invoke call).reports := by
      rw [Traced.reports, c.notes_perform, Traced.reports]
    rw [hreports, reports_invoke, due]
    cases (c.invoke call).value.1 <;> rfl
  | exec call =>
    have hreports : (c.perform (.exec call)).reports = (c.exec call).reports := by
      rw [Traced.reports, c.notes_perform, Traced.reports]
    rw [hreports, reports_exec, reports_invoke, due]
    cases (c.invoke call).value.1 <;> rfl
  | close =>
    have hreports : (c.perform .close).reports = c.close.reports := by
      rw [Traced.reports, c.notes_perform, Traced.reports]
    rw [hreports, reports_close hc, due]

end Component

end Closing

/-- A run reports what is due for its operations, one after the other. -/
theorem Component.reports_run {c : Component σ} (hc : c.Sound) (ops : List Operation) :
    (c.run ops).reports = (c.dues ops).map (c.sink, ·) := by
  induction ops generalizing c with
  | nil => rfl
  | cons op ops ih =>
    have hrest := ih (hc.perform op)
    rw [(c.kin_perform op).sink_eq] at hrest
    rw [Traced.reports, (c.run_cons op ops).2, List.filterMap_append, dues, List.map_append,
      ← reports_perform hc op, ← hrest]
    rfl

namespace Blueprint

theorem sink_build (p : Blueprint σ) : p.build.value.sink = p.sink := by
  rw [build, Traced.value_bind]
  cases p.bind.value <;> rfl

theorem reports_build (p : Blueprint σ) : p.build.reports = p.dueBuild.map (p.sink, ·) := by
  rw [dueBuild, build, Traced.reports_bind, p.silent_bind, Traced.value_bind]
  cases p.bind.value with
  | ok b => rfl
  | error cause =>
    simp only [Traced.reports_bind, Sink.reports_report]
    rfl

theorem reports_run (p : Blueprint σ) (ops : List Operation) :
    (p.build.value.run ops).reports = (p.build.value.dues ops).map (p.sink, ·) := by
  rw [Component.reports_run (Component.sound_build p), sink_build]

theorem reports_live (p : Blueprint σ) (ops : List Operation) :
    (p.live ops).reports = (p.dues ops).map (p.sink, ·) := by
  have hsound := p.sound_run ops
  have hsink := (p.build.value.kin_run ops).sink_eq.trans p.sink_build
  have hdrop := Component.reports_drop hsound
  rw [hsink] at hdrop
  have hnotes : (p.build.value.live ops).notes =
      (p.build.value.run ops).notes ++ (p.build.value.run ops).value.2.drop.notes := by
    rw [Component.live, Traced.notes_bind, Traced.notes_bind]
    exact congrArg _ (List.append_nil _)
  rw [live, Traced.reports_bind, reports_build, dues, List.map_append, List.map_append,
    ← reports_run, ← hdrop, Traced.reports, hnotes, List.filterMap_append]
  rfl

/-- The component that a failed building drops reports nothing more. -/
theorem reports_tryBuild (p : Blueprint σ) :
    p.tryBuild.reports =
      match p.tryBuild.value with
      | .ok _ => []
      | .error cause => [(p.sink, ⟨.error, .construction, cause.message⟩)] := by
  rw [tryBuild_value, tryBuild, Traced.reports_bind, reports_build, dueBuild]
  have hsound := Component.sound_build p
  generalize p.build.value = c at hsound
  cases hc : c.cause? with
  | none => rfl
  | some cause =>
    -- a component that is not bound has nothing to close
    have hdrop := Component.reports_drop hsound
    rw [Component.dueDrop_of_cause? hc] at hdrop
    simp only [Traced.reports_bind, hdrop]
    rfl

end Blueprint

/-! ## Ledgers -/

namespace Ledger

/-- What happens to a ledger: a note comes by, or someone takes what it has kept. -/
inductive Action where
  | note (n : Note)
  | take

def Action.note? : Action → Option Note
  | .note n => some n
  | .take => none

/-- The batches that are taken, and the ledger in the end. -/
def drain (l : Ledger) (name : String) : List Action → List (List Diagnostic) × Ledger
  | [] => ([], l)
  | .note n :: rest => (l.receive name [n]).drain name rest
  | .take :: rest =>
    let (batch, l) := l.take
    let (batches, l) := l.drain name rest
    (batch :: batches, l)

/-- Nothing is lost and nothing comes twice, whenever a ledger is emptied. -/
theorem flatten_drain (l : Ledger) (name : String) (actions : List Action) :
    (l.drain name actions).1.flatten ++ (l.drain name actions).2.entries =
      l.entries ++ (actions.filterMap Action.note?).filterMap (Note.entryFor? name) := by
  induction actions generalizing l with
  | nil => exact (List.append_nil _).symm
  | cons action rest ih =>
    cases action with
    | note n =>
      have hone : [n].filterMap (Note.entryFor? name) ++
          (rest.filterMap Action.note?).filterMap (Note.entryFor? name) =
            (n :: rest.filterMap Action.note?).filterMap (Note.entryFor? name) := by
        rw [← List.filterMap_append, List.singleton_append]
      rw [drain, ih, entries_receive, List.append_assoc, hone]
      rfl
    | take =>
      have hrest := ih l.take.2
      rw [drain, List.flatten_cons, List.append_assoc, hrest]
      rfl

def Action.isTake : Action → Bool
  | .take => true
  | .note _ => false

/-- The diagnostics that some actions bring to the ledger of a name. -/
def arrivals (name : String) (actions : List Action) : List Diagnostic :=
  (actions.filterMap Action.note?).filterMap (Note.entryFor? name)

theorem arrivals_note (name : String) (n : Note) (rest : List Action) :
    arrivals name (.note n :: rest) =
      [n].filterMap (Note.entryFor? name) ++ arrivals name rest := by
  rw [arrivals, arrivals, ← List.filterMap_append]
  rfl

/-- A batch is what has arrived since the one before it, and what has arrived since the last one
is left. What was there from the first goes with the first. -/
theorem drain_eq_splitOnP (l : Ledger) (name : String) (actions : List Action) :
    (l.drain name actions).1 ++ [(l.drain name actions).2.entries] =
      ((actions.splitOnP Action.isTake).map (arrivals name)).modifyHead (l.entries ++ ·) := by
  induction actions generalizing l with
  | nil => exact congrArg (fun ds => [ds]) (List.append_nil l.entries).symm
  | cons action rest ih =>
    obtain ⟨first, others, hsplit⟩ :=
      List.exists_cons_of_ne_nil (List.splitOnP_ne_nil Action.isTake rest)
    rw [hsplit] at ih
    rw [List.splitOnP_cons_eq_if_modifyHead, hsplit]
    cases action with
    | note n =>
      have hrest := ih (l.receive name [n])
      rw [entries_receive] at hrest
      simp only [Action.isTake, Bool.false_eq_true, if_false, List.modifyHead_cons, List.map_cons,
        arrivals_note, ← List.append_assoc]
      exact hrest
    | take =>
      have hrest := ih l.take.2
      simp only [Action.isTake, if_true, List.map_cons, List.modifyHead_cons]
      exact congrArg₂ (· :: ·) (List.append_nil l.entries).symm hrest

end Ledger

/-- A ledger keeps the diagnostics of the reports that are made to it. -/
theorem filterMap_entryFor? {notes : List Note} {name : String} {ds : List Diagnostic}
    (h : notes.filterMap Note.report? = ds.map (Sink.ledger name, ·)) :
    notes.filterMap (Note.entryFor? name) = ds := by
  have hentry (n : Note) : n.entryFor? name =
      n.report?.bind fun (sink, d) => if sink = .ledger name then some d else none := by
    cases n with
    | report sink d => cases sink <;> simp [Note.entryFor?, Note.report?]
    | _ => rfl
  have hfilter : notes.filterMap (Note.entryFor? name) =
      (notes.filterMap Note.report?).filterMap fun (sink, d) =>
        if sink = .ledger name then some d else none := by
    rw [List.filterMap_filterMap]
    exact List.filterMap_congr fun n _ => hentry n
  rw [hfilter, h, List.filterMap_map]
  simp

namespace Blueprint

/-- What sinks and ledgers get in all lives of the components of a blueprint. -/
structure Accounted (p : Blueprint σ) : Prop where
  build : p.build.reports = p.dueBuild.map (p.sink, ·)
  run : ∀ ops, (p.build.value.run ops).reports = (p.build.value.dues ops).map (p.sink, ·)
  live : ∀ ops, (p.live ops).reports = (p.dues ops).map (p.sink, ·)
  tryBuild : p.tryBuild.reports =
    match p.tryBuild.value with
    | .ok _ => []
    | .error cause => [(p.sink, ⟨.error, .construction, cause.message⟩)]
  /-- What an exec answers is what is reported. -/
  exec : ∀ ops c call e, c = (p.build.value.run ops).value.2 →
    (c.invoke call).value.1 = .error e → (c.exec call).value.1 = .text e.message
  /-- The batches that are taken from a ledger in a life and what is left in it in the end: all that
  is due, each batch with what came since the one before it. -/
  ledger : ∀ ops name actions batches l, p.sink = .ledger name →
    actions.filterMap Ledger.Action.note? = (p.live ops).notes →
    Ledger.drain {} name actions = (batches, l) → batches.flatten ++ l.entries = p.dues ops ∧
      batches ++ [l.entries] = (actions.splitOnP Ledger.Action.isTake).map (Ledger.arrivals name)

/-- Sinks get exactly the diagnostics that are due, and ledgers hand over each of them once. -/
theorem reports_accounted (p : Blueprint σ) : p.Accounted where
  build := p.reports_build
  run := p.reports_run
  live := p.reports_live
  tryBuild := p.reports_tryBuild
  exec _ _ _ _ _ he := Component.exec_of_error he
  ledger ops name actions batches l hsink hactions hdrain := by
    have hreports := p.reports_live ops
    rw [hsink, Traced.reports] at hreports
    have hentries := filterMap_entryFor? hreports
    have hall := Ledger.flatten_drain {} name actions
    have hbatches := Ledger.drain_eq_splitOnP {} name actions
    rw [hdrain, hactions, hentries] at hall
    rw [hdrain] at hbatches
    refine ⟨hall, hbatches.trans ?_⟩
    cases (actions.splitOnP Ledger.Action.isTake).map (Ledger.arrivals name) <;> rfl

end Blueprint

/-- A ledger that is emptied in the end has handed over the one failure of two requests. -/
theorem tally_reports_accounted :
    let p : Blueprint Nat := { Tally.blueprint with sink := .ledger "main" }
    let ops : List Operation := [.invoke (Graph.leaf "count").view, .exec (Graph.leaf "fail").view]
    let actions := (p.live ops).notes.map Ledger.Action.note ++ [.take]
    let failure : Diagnostic :=
      ⟨.warning, .invocation, "demo.Tally.fail() failed: panicked: Unknown panic"⟩
    (Ledger.drain {} "main" actions).1.flatten ++ (Ledger.drain {} "main" actions).2.entries =
        [failure] ∧
      (Ledger.drain {} "main" actions).1 ++ [(Ledger.drain {} "main" actions).2.entries] =
        [[failure], []] := by
  intro p ops actions failure
  have hactions : actions.filterMap Ledger.Action.note? = (p.live ops).notes := by
    rw [List.filterMap_append, List.filterMap_map]
    simp [Function.comp_def, Ledger.Action.note?]
  have hdues : p.dues ops = [failure] := by decide +kernel
  have hbatches : (actions.splitOnP Ledger.Action.isTake).map (Ledger.arrivals "main") =
      [[failure], []] := by decide +kernel
  obtain ⟨hall, hsplit⟩ :=
    (Blueprint.reports_accounted p).ledger ops "main" actions _ _ rfl hactions rfl
  exact ⟨hall.trans hdues, hsplit.trans hbatches⟩

end HostCall
