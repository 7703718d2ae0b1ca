import HostCall.Proofs.Graph.Copy
import HostCall.Proofs.Graph.Paths
import HostCall.Proofs.Graph.Walk

/-!
# Copies along paths

A copy that is copied again stays as it is, and a graph is its own copy. Where a node and all its
descendants claim exactly the children that they have, its copy is the same tree: a path leads
somewhere in the one if it does in the other, to nodes of one name and one number of children.
-/

namespace HostCall

namespace NodeView

/-- The node at the end of a path. -/
def at? (v : NodeView) : List Nat → Option NodeView
  | [] => some v
  | i :: path => (v.child? i).bind (at? · path)

/-- What a node tells of itself. -/
def label (v : NodeView) : String × Nat := (v.name, v.claimed)

namespace Truthful

variable {v : NodeView}

theorem isSome_child?_iff (h : v.Truthful) {i : Nat} :
    (v.child? i).isSome = true ↔ i < v.children.length := by
  rw [h.length_children]
  cases h with
  | intro counts _ => exact counts i

/-- A walk meets all children that there are. -/
theorem child?_eq (h : v.Truthful) (i : Nat) : v.child? i = v.children[i]? := by
  rw [getElem?_children_eq]
  by_cases hi : i < v.children.length
  · rw [if_pos hi]
  · rw [if_neg hi]
    cases hc : v.child? i with
    | none => rfl
    | some c =>
      have hmet : i < v.children.length := h.isSome_child?_iff.mp (by rw [hc]; rfl)
      exact absurd hmet hi

theorem of_child? (h : v.Truthful) {i : Nat} {c : NodeView} (hc : v.child? i = some c) :
    c.Truthful := by
  cases h with
  | intro _ descends => exact descends i c hc

theorem of_at? (h : v.Truthful) {path : List Nat} {n : NodeView} (hn : v.at? path = some n) :
    n.Truthful := by
  induction path generalizing v with
  | nil =>
    cases hn
    exact h
  | cons i path ih =>
    obtain ⟨c, hc, hn⟩ := Option.bind_eq_some_iff.mp hn
    exact ih (h.of_child? hc) hn

theorem at?_copy (h : v.Truthful) (path : List Nat) :
    v.copy.at? path = (v.at? path).map copy := by
  induction path generalizing v with
  | nil => rfl
  | cons i path ih =>
    have hcopied : v.copy.child? i = (v.child? i).map copy := by
      rw [Graph.child?, children_copy, List.getElem?_map, h.child?_eq]
    rw [Graph.at?, at?, hcopied]
    cases hc : v.child? i with
    | none => rfl
    | some c => exact ih (h.of_child? hc)

end Truthful

end NodeView

namespace Graph

theorem child?_view (g : Graph) (i : Nat) : g.view.child? i = (g.child? i).map view := by
  rw [g.truthful_view.child?_eq, children_view, List.getElem?_map, child?]

theorem at?_view (g : Graph) (path : List Nat) : g.view.at? path = (g.at? path).map view := by
  induction path generalizing g with
  | nil => rfl
  | cons i path ih =>
    rw [NodeView.at?, at?, child?_view]
    cases g.child? i with
    | none => rfl
    | some c => exact ih c

end Graph

namespace NodeView

variable {v : NodeView}

theorem Truthful.label_view_copy (h : v.Truthful) : v.copy.view.label = v.label := by
  rw [label, label, Graph.name_view, name_copy, h.claimed_view_copy]

/-- What the copy of a node is, be the node truthful or not. -/
structure Copied (v : NodeView) : Prop where
  again : v.copy.view.copy = v.copy
  /-- At every path, the copy of a truthful node has the node that stands there in the original,
  with its name and its number of children. -/
  mirrors : v.Truthful → ∀ path, (v.copy.view.at? path).map label = (v.at? path).map label
  /-- The copy is the same tree as a graph and as a node that is walked over. -/
  viewed : ∀ path, (v.copy.view.at? path).map label =
    (v.copy.at? path).map fun n => (n.name, n.size)

theorem copied (v : NodeView) : v.Copied where
  again := Graph.copy_view v.copy
  mirrors h path := by
    rw [Graph.at?_view, h.at?_copy, Option.map_map, Option.map_map]
    cases hn : v.at? path with
    | none => rfl
    | some n => exact congrArg some (h.of_at? hn).label_view_copy
  viewed path := by
    rw [Graph.at?_view, Option.map_map]
    refine congrArg (Option.map · _) (funext fun n => ?_)
    rw [Function.comp_apply, label, Graph.name_view, Graph.claimed_view, Graph.size]

end NodeView

end HostCall
