import HostCall.Proofs.Component.Reports
import HostCall.Proofs.Graph.Copy

/-!
# Calls and their copies

A component sees no more of a truthful call than a copy shows: the answer, the instance afterwards
and all that is left behind on the way are those of the copy. Where the evaluator answers the
children of two calls alike, the component answers the calls alike; where it shows others the same
as well, the notes agree one by one.
-/

namespace HostCall

variable {σ : Type}

open Traced (Agrees)

namespace Evaluator

/-- An evaluator gives truthful nodes and their copies the same answers. -/
def AnswersAlike (evaluator : Evaluator) : Prop :=
  ∀ v : NodeView, v.Truthful → (evaluator v).answer = (evaluator v.copy.view).answer

/-- An evaluator gives truthful nodes and their copies the same answers and shows the same. -/
def ActsAlike (evaluator : Evaluator) : Prop :=
  ∀ v : NodeView, v.Truthful → evaluator v = evaluator v.copy.view

/-- An evaluator that answers as another one does and tells others about the nodes it is asked. -/
def telling (evaluator : Evaluator) (tell : Graph → List String) : Evaluator := fun v =>
  { answer := (evaluator v).answer, events := tell v.copy }

theorem ActsAlike.answersAlike {evaluator : Evaluator} (h : evaluator.ActsAlike) :
    evaluator.AnswersAlike := fun v hv => congrArg Response.answer (h v hv)

theorem AnswersAlike.telling {evaluator : Evaluator} (h : evaluator.AnswersAlike)
    (tell : Graph → List String) : (evaluator.telling tell).ActsAlike := fun v hv => by
  rw [Evaluator.telling, Evaluator.telling, h v hv, Graph.copy_view]

theorem read_view_copy {v : NodeView} (hv : v.Truthful) : read v.copy.view = read v := by
  rw [read, read, NodeView.isEmpty, NodeView.isEmpty, hv.claimed_view_copy, NodeView.tryCopy,
    NodeView.tryCopy, hv.fits_view_copy, Graph.name_view, NodeView.name_copy, Graph.copy_view]

theorem actsAlike_literal : literal.ActsAlike := fun v hv => by
  rw [literal, literal, read_view_copy hv]

end Evaluator

/-- Two calls look alike to an evaluator: they have one copy and claim as much, and their children are
answered alike. -/
structure Alike (shown : Prop) (evaluator : Evaluator) (v w : NodeView) : Prop where
  claimed_eq : v.claimed = w.claimed
  copy_eq : v.copy = w.copy
  children : List.Forall₂ (fun a b => (evaluator a).answer = (evaluator b).answer ∧
    (shown → (evaluator a).events = (evaluator b).events)) v.children w.children

section Agreement

variable {shown : Prop} {evaluator : Evaluator} {v w : NodeView}

theorem Alike.name_eq (h : Alike shown evaluator v w) : v.name = w.name := by
  rw [← v.name_copy, h.copy_eq, w.name_copy]

/-- A truthful call and its copy. -/
theorem Alike.of_truthful (hv : v.Truthful) (he : evaluator.AnswersAlike)
    (hs : shown → evaluator.ActsAlike) : Alike shown evaluator v v.copy.view where
  claimed_eq := hv.claimed_view_copy.symm
  copy_eq := v.copy.copy_view.symm
  children := by
    rw [v.children_view_copy, List.forall₂_map_right_iff, List.forall₂_same]
    intro c hc
    have hc' : c.Truthful := hv.of_mem_children hc
    exact ⟨he c hc', fun h => congrArg Response.events (hs h c hc')⟩

namespace Arguments

theorem agrees_evaluate {nodes others : List NodeView}
    (h : List.Forall₂ (fun a b => (evaluator a).answer = (evaluator b).answer ∧
      (shown → (evaluator a).events = (evaluator b).events)) nodes others)
    (name : String) (index : Nat) :
    Agrees shown Eq (evaluate name evaluator index nodes)
      (evaluate name evaluator index others) := by
  induction h generalizing index with
  | nil => exact .refl _
  | @cons a b nodes others hab _ ih =>
    have hevents : Agrees shown Eq (Traced.events (evaluator a).events)
        (Traced.events (evaluator b).events) := ⟨rfl, fun hs => by rw [hab.2 hs]⟩
    refine hevents.bind fun _ _ _ => ?_
    rw [Response.contain, Response.contain, hab.1]
    cases (evaluator b).answer with
    | error p => exact .pure rfl
    | ok value => exact (ih (index + 1)).bind_eq fun _ => .refl _

theorem agrees_ofCall (h : Alike shown evaluator v w) (maxArgs : Option Nat) :
    Agrees shown Eq (ofCall v evaluator maxArgs) (ofCall w evaluator maxArgs) := by
  rw [ofCall, ofCall, h.claimed_eq, h.name_eq]
  cases maxArgs.filter (· < w.claimed) with
  | some max => exact .refl _
  | none => exact (agrees_evaluate h.children w.name 0).bind_eq fun _ => .refl _

end Arguments

theorem Binding.agrees_dispatch (b : Binding σ) (ctx : CallContext)
    (h : Alike shown ctx.evaluator v w) :
    Agrees shown Eq (b.dispatch ctx v) (b.dispatch ctx w) := by
  have hfield : b.fieldFor? ctx.options v = b.fieldFor? ctx.options w := by
    rw [fieldFor?, fieldFor?, NodeView.isEmpty, NodeView.isEmpty, h.claimed_eq, h.name_eq]
  rw [dispatch, dispatch, hfield]
  cases b.fieldFor? ctx.options w with
  | some f => exact .refl _
  | none =>
    rw [dispatchMethod, dispatchMethod, h.name_eq]
    exact (Arguments.agrees_ofCall h ctx.options.maxArgs).bind_eq fun _ => .refl _

namespace Component

variable {c : Component σ}

theorem agrees_answer (h : Alike shown c.evaluator v w) :
    Agrees shown Eq (c.answer v) (c.answer w) := by
  rw [answer, answer, h.copy_eq]
  cases c.standing with
  | unbound cause => exact .refl _
  | bound b =>
    refine (Agrees.refl _).bind_eq fun _ => ?_
    exact (b.agrees_dispatch c.context h).bind_eq fun _ => .refl _

theorem agrees_invoke (h : Alike shown c.evaluator v w) :
    Agrees shown Eq (c.invoke v) (c.invoke w) :=
  (agrees_answer h).bind_eq fun _ => .refl _

theorem agrees_exec (h : Alike shown c.evaluator v w) :
    Agrees shown Eq (c.exec v) (c.exec w) :=
  (agrees_invoke h).bind_eq fun _ => .refl _

end Component

end Agreement

namespace Component

variable {c : Component σ} {call : NodeView}

/-- A component with another evaluator. -/
def evaluating (c : Component σ) (evaluator : Evaluator) : Component σ := { c with evaluator }

/-- How a component answers a call is how it answers the copy of the call. -/
structure AnswersCopy (c : Component σ) (call : NodeView) : Prop where
  /-- The result, and the component afterwards with the state of its instance. -/
  value : (c.invoke call).value = (c.invoke call.copy.view).value
  reports : (c.invoke call).reports = (c.invoke call.copy.view).reports
  /-- Whatever the evaluator tells about the nodes it is asked, it is the same and told at the same
  places. -/
  asked : ∀ tell, (c.evaluating (c.evaluator.telling tell)).invoke call =
    (c.evaluating (c.evaluator.telling tell)).invoke call.copy.view
  whole : c.evaluator.ActsAlike → c.invoke call = c.invoke call.copy.view

theorem answersCopy (hcall : call.Truthful) (he : c.evaluator.AnswersAlike) :
    c.AnswersCopy call where
  value := (agrees_invoke (.of_truthful hcall he False.elim)).value
  reports := by
    rw [reports_invoke, reports_invoke, (agrees_invoke (.of_truthful hcall he False.elim)).value]
  asked tell :=
    (agrees_invoke (c := c.evaluating (c.evaluator.telling tell))
      (.of_truthful hcall (he.telling tell).answersAlike fun _ => he.telling tell)).eq
  whole ha := (agrees_invoke (.of_truthful hcall he fun _ => ha)).eq

end Component

/-! ## Operations and building -/

namespace Operation

/-- The operation with the copy of its call. -/
def copied : Operation → Operation
  | .invoke call => .invoke call.copy.view
  | .exec call => .exec call.copy.view
  | .close => .close

def Truthful : Operation → Prop
  | .invoke call | .exec call => call.Truthful
  | .close => True

end Operation

namespace Component

theorem perform_copied {c : Component σ} (he : c.evaluator.ActsAlike) {op : Operation}
    (hop : op.Truthful) : c.perform op.copied = c.perform op := by
  have halike {call : NodeView} (h : call.Truthful) :
      Alike True c.evaluator call call.copy.view := .of_truthful h he.answersAlike fun _ => he
  cases op with
  | invoke call => rw [Operation.copied, perform, perform, (agrees_invoke (halike hop)).eq]
  | exec call => rw [Operation.copied, perform, perform, (agrees_exec (halike hop)).eq]
  | close => rfl

/-- A run is the same with copies in place of the calls. -/
theorem run_copied {c : Component σ} (he : c.evaluator.ActsAlike) {ops : List Operation}
    (hops : ∀ op ∈ ops, op.Truthful) : c.run (ops.map Operation.copied) = c.run ops := by
  induction ops generalizing c with
  | nil => rfl
  | cons op ops ih =>
    have hop := perform_copied he (hops op List.mem_cons_self)
    have hnext : (c.perform op).value.2.evaluator.ActsAlike := by
      rwa [(c.kin_perform op).evaluator_eq]
    have hrest := ih hnext fun other h => hops other (List.mem_cons_of_mem op h)
    refine Agrees.eq ⟨?_, fun _ => ?_⟩
    · rw [List.map_cons, (c.run_cons _ _).1, (c.run_cons _ _).1, hop, hrest]
    · rw [List.map_cons, (c.run_cons _ _).2, (c.run_cons _ _).2, hop, hrest]

end Component

namespace Blueprint

def configured (p : Blueprint σ) (config : NodeView) : Blueprint σ := { p with config := some config }

theorem bind_configured (p : Blueprint σ) (config : NodeView) :
    (p.configured config).bind = (p.configured config.copy.view).bind := by
  rw [bind, bind, configured, configured]
  cases p.options.validate with
  | error e => rfl
  | ok _ =>
    simp only [Registry.bind, HostClass.instantiate, Graph.copy_view]

/-- Only a copy of the configuration is used, be the configuration truthful or not. -/
theorem build_configured (p : Blueprint σ) (config : NodeView) :
    (p.configured config).build = (p.configured config.copy.view).build := by
  rw [build, build, bind_configured]
  rfl

theorem tryBuild_configured (p : Blueprint σ) (config : NodeView) :
    (p.configured config).tryBuild = (p.configured config.copy.view).tryBuild := by
  rw [tryBuild, tryBuild, build_configured]

end Blueprint

/-- A truthful node is as good as its copy, as a call before any component whose evaluator answers
nodes and copies alike, and as a configuration. -/
theorem NodeView.Truthful.seen_by_copy {v : NodeView} (hv : v.Truthful) :
    Evaluator.literal.ActsAlike ∧
      (∀ c : Component σ, c.evaluator.AnswersAlike → c.AnswersCopy v) ∧
      ∀ p : Blueprint σ, (p.configured v).build = (p.configured v.copy.view).build ∧
        (p.configured v).tryBuild = (p.configured v.copy.view).tryBuild :=
  ⟨Evaluator.actsAlike_literal, fun _ he => Component.answersCopy hv he,
    fun p => ⟨p.build_configured v, p.tryBuild_configured v⟩⟩

namespace Tally

/-- A call of another kind than graphs: there is a position behind those that it claims. -/
def foreignCall : NodeView := .mk "raise" 1 [some (.mk "1" 0 []), none]

theorem truthful_foreignCall : foreignCall.Truthful := by
  have hleaf : (NodeView.mk "1" 0 []).Truthful :=
    .of_children (fun _ hc => absurd hc List.not_mem_nil) "1" 0
  have hcs (c : NodeView) (hc : c ∈ [NodeView.mk "1" 0 []]) : c.Truthful := by
    rwa [List.mem_singleton.mp hc]
  exact .of_children hcs "raise" 1

end Tally

/-- The view of a copy is another one than the view of the node, but answers alike. -/
theorem tally_seen_by_copy :
    Tally.foreignCall.Truthful ∧ Tally.foreignCall ≠ Tally.foreignCall.copy.view ∧
      Tally.component.evaluator.AnswersAlike ∧ Tally.component.AnswersCopy Tally.foreignCall ∧
      (Tally.blueprint.configured Tally.foreignCall).build =
        (Tally.blueprint.configured Tally.foreignCall.copy.view).build := by
  obtain ⟨hliteral, hcall, hconfig⟩ :=
    @NodeView.Truthful.seen_by_copy Nat _ Tally.truthful_foreignCall
  have hne : Tally.foreignCall ≠ Tally.foreignCall.copy.view := fun h =>
    absurd (congrArg (fun v => v.slots.length) h) (by decide)
  have he : Tally.component.evaluator.AnswersAlike := hliteral.answersAlike
  exact ⟨Tally.truthful_foreignCall, hne, he, hcall _ he, (hconfig _).1⟩

end HostCall
