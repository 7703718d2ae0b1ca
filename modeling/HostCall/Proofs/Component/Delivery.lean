import HostCall.Proofs.Component.Construction
import HostCall.Proofs.Component.Copies
import HostCall.Proofs.Graph.Mirror

/-!
# Nodes that reach host code

Host code is never handed a node itself. A configuration and an argument that stays unreduced reach
it as copies, and it is the same copy either way: all that a walk over the node meets, which is the
whole tree where the node is truthful.
-/

namespace HostCall

variable {σ : Type}

namespace Evaluator

theorem literal_eq_node {v : NodeView} (hv : v.isEmpty = false) (hfits : v.fits = true) :
    (literal v).answer = .ok (.node v.copy) := by
  rw [literal, read, hv, NodeView.tryCopy_of_fits hfits]
  rfl

theorem eq_node_of_literal {v : NodeView} {value : Value} (hv : v.isEmpty = false)
    (h : (literal v).answer = .ok value) : value = .node v.copy := by
  cases hfits : v.fits with
  | true =>
    rw [literal_eq_node hv hfits] at h
    exact (Except.ok.inj h).symm
  | false =>
    rw [literal, read, hv, NodeView.tryCopy_of_full hfits] at h
    cases h

theorem Yields.exists_getElem? {evaluator : Evaluator} {nodes : List NodeView}
    {values : List Value} (h : evaluator.Yields nodes values) {i : Nat} {v : NodeView}
    (hi : nodes[i]? = some v) :
    ∃ value, values[i]? = some value ∧ (evaluator v).answer = .ok value := by
  induction h generalizing i with
  | nil => cases hi
  | cons hv _ ih =>
    cases i with
    | zero =>
      cases Option.some.inj hi
      exact ⟨_, rfl, hv⟩
    | succ i => exact ih hi

end Evaluator

/-- Host code that asks for a graph at the position of an unreduced argument gets its copy. -/
theorem ArgumentList.get_graph {call v : NodeView} {values : ArgumentList}
    (h : Evaluator.literal.Yields call.children values) {i : ArgumentList.Position}
    (hi : call.children[i.toNat]? = some v) (hv : v.isEmpty = false) :
    values.get (.plain .graph) i = .ok v.copy := by
  obtain ⟨value, hvalue, hanswer⟩ := h.exists_getElem? hi
  rw [get_of_getElem? hvalue, Evaluator.eq_node_of_literal hv hanswer]
  rfl

namespace NodeView

/-- How a node reaches host code. -/
structure Delivered (σ : Type) (v : NodeView) : Prop where
  /-- The configured constructor runs on the copy of the configuration. -/
  configures : ∀ (p : Blueprint σ) (c : HostClass σ) make,
    Text.isBlank p.options.closeMethod = false → p.registry.get? p.typeName = some c →
    c.constructor? [.node] = some (.configured make) →
    (p.configured v).bind.value = Blueprint.made c (make v.copy) ∧
      (p.configured v).bind.seen = (make v.copy).events
  /-- Where there is room for a copy, an unreduced argument has it for its value. -/
  evaluates : v.isEmpty = false → v.fits = true →
    (Evaluator.literal v).answer = .ok (.node v.copy)
  /-- A method runs on arguments that have the copy wherever the call has the node. -/
  passes : ∀ (c : Component σ) (b : Binding σ) call m values, c.Reachable →
    c.standing = .bound b → c.evaluator = .literal → b.Resolves c.context call m values →
    (c.invoke call).value =
        (b.methodReply m values, c.withState (m.body b.receiver.state values).2) ∧
      ∀ i : ArgumentList.Position, call.children[i.toNat]? = some v → v.isEmpty = false →
        ArgumentList.get values (.plain .graph) i = .ok v.copy

theorem delivered (v : NodeView) : v.Delivered σ where
  configures p c make named found has := by
    have hnamed : Text.isBlank (p.configured v).options.closeMethod = false := named
    have hconstructs : (p.configured v).Constructs c (make v.copy) :=
      .configured found rfl has
    exact ⟨Blueprint.bind_of_constructs (Blueprint.isValid_of_named hnamed) hconstructs,
      Blueprint.seen_bind_of_constructs hnamed hconstructs⟩
  evaluates hv hfits := Evaluator.literal_eq_node hv hfits
  passes c b call m values hc hb he hm := by
    have hyields : c.context.evaluator.Yields call.children values := hm.1.2.2
    rw [Component.context, he] at hyields
    refine ⟨(Component.invoke_of_decides hc.sound hb (.method hm)).1, ?_⟩
    intro i hi hv
    exact ArgumentList.get_graph hyields hi hv

/-- A graph is its own copy. A walk over any node meets the children one by one and ends for good,
a copy has all that walks meet, and host code is handed such copies. -/
theorem faithful :
    (∀ g : Graph, g.view.copy = g) ∧ ∀ v : NodeView, v.Walked ∧ v.Copied ∧ v.Delivered σ :=
  ⟨Graph.copy_view, fun v => ⟨v.walked, v.copied, v.delivered⟩⟩

end NodeView

namespace Tally

/-- A node that claims three children, of which a walk meets one: no child is at the position
behind it. -/
def gapped : NodeView := .mk "shelf" 3 [some (.mk "book" 0 []), none, some (.mk "lamp" 0 [])]

def gappedCall : NodeView := .mk "raise" 1 [some gapped]

theorem resolves_gappedCall :
    binding.Resolves component.context gappedCall hostClass.methods[0] [.node gapped.copy] := by
  have hready : binding.Ready component.context gappedCall [.node gapped.copy] := by
    refine ⟨?_, ?_, .cons (Evaluator.literal_eq_node rfl rfl) .nil⟩
    · intro f hf
      exact Nat.one_ne_zero hf.2.1
    · intro max hmax
      cases hmax.1
      exact Nat.lt_irrefl 1 hmax.2
  exact ⟨hready, .widened, Method.select_eq_some_iff.mp rfl⟩

end Tally

/-- The method that is run gets the part of the node that a walk meets. -/
theorem tally_faithful :
    Tally.binding.Resolves Tally.component.context Tally.gappedCall Tally.hostClass.methods[0]
        [.node Tally.gapped.copy] ∧
      ArgumentList.get [.node Tally.gapped.copy] (.plain .graph) 0 =
        .ok (Graph.node "shelf" [.leaf "book"]) := by
  obtain ⟨-, hnodes⟩ := NodeView.faithful (σ := Nat)
  obtain ⟨-, -, hdelivered⟩ := hnodes Tally.gapped
  obtain ⟨-, hpassed⟩ := hdelivered.passes Tally.component Tally.binding Tally.gappedCall _ _
    Tally.reachable_component Tally.standing_component rfl Tally.resolves_gappedCall
  exact ⟨Tally.resolves_gappedCall, hpassed 0 rfl rfl⟩

end HostCall
