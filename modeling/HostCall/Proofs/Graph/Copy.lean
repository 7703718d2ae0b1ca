import HostCall.Graph.View

/-!
# Copies of nodes

A copy keeps the name of a node and copies of the children that a walk meets. Where a node claims
exactly the children that it has, all the way down, its copy cannot be told from it: the copy
claims as many children, and room for it can be set aside if and only if it can be for the node.
-/

namespace HostCall

namespace NodeView

variable {v : NodeView}

/-- A node claims exactly the children that it has, and so do all its descendants. What stands
past the claimed positions has to be no child. -/
inductive Truthful : NodeView → Prop
  | intro {v : NodeView} (counts : ∀ i, (v.child? i).isSome = true ↔ i < v.claimed)
      (descends : ∀ i c, v.child? i = some c → Truthful c) : Truthful v

theorem copySlots_eq (slots : List (Option NodeView)) :
    copySlots slots = (beforeGap slots).map copy := by
  induction slots with
  | nil => simp [copySlots, beforeGap]
  | cons slot rest ih =>
    cases slot with
    | none => simp [copySlots, beforeGap]
    | some c => simp [copySlots, beforeGap, ih]

theorem copy_eq (v : NodeView) : v.copy = .node v.name (v.children.map copy) := by
  cases v with
  | mk name claimed slots => rw [copy, copySlots_eq]; rfl

theorem fitsSlots_eq (slots : List (Option NodeView)) :
    fitsSlots slots = (beforeGap slots).all fits := by
  induction slots with
  | nil => simp [fitsSlots, beforeGap]
  | cons slot rest ih =>
    cases slot with
    | none => simp [fitsSlots, beforeGap]
    | some c => simp [fitsSlots, beforeGap, ih]

theorem hasRoom_eq (claimed : Nat) (slots : List (Option NodeView)) :
    hasRoom claimed slots = ((beforeGap slots).isEmpty || claimed ≤ maxRoom) := by
  cases slots with
  | nil => rfl
  | cons slot rest => cases slot <;> rfl

theorem fits_eq (v : NodeView) :
    v.fits = (v.children.all fits && (v.children.isEmpty || v.claimed ≤ maxRoom)) := by
  cases v with
  | mk name claimed slots => rw [fits, fitsSlots_eq, hasRoom_eq]; rfl

/-- A walk meets only what stands at positions. -/
theorem exists_join_of_mem {slots : List (Option NodeView)} {c : NodeView}
    (hc : c ∈ beforeGap slots) : ∃ i : Nat, slots[i]?.join = some c := by
  induction slots with
  | nil => cases hc
  | cons slot rest ih =>
    cases slot with
    | none => cases hc
    | some d =>
      rcases List.mem_cons.mp hc with rfl | hc
      · exact ⟨0, rfl⟩
      · obtain ⟨i, hi⟩ := ih hc
        exact ⟨i + 1, hi⟩

/-- Where exactly the positions below a bound have children, a walk meets as many as that. -/
theorem length_beforeGap {slots : List (Option NodeView)} {n : Nat}
    (h : ∀ i : Nat, slots[i]?.join.isSome = true ↔ i < n) : (beforeGap slots).length = n := by
  induction slots generalizing n with
  | nil =>
    have h0 : ¬ 0 < n := fun hlt => Bool.noConfusion ((h 0).mpr hlt)
    simp only [beforeGap, List.length_nil]
    omega
  | cons slot rest ih =>
    cases slot with
    | none =>
      have h0 : ¬ 0 < n := fun hlt => Bool.noConfusion ((h 0).mpr hlt)
      simp only [beforeGap, List.length_nil]
      omega
    | some c =>
      have h0 : 0 < n := (h 0).mp rfl
      have hrest : (beforeGap rest).length = n - 1 := by
        refine ih fun i => ?_
        have hi := h (i + 1)
        rw [List.getElem?_cons_succ] at hi
        rw [hi]
        omega
      simp only [beforeGap, List.length_cons, hrest]
      omega

namespace Truthful

theorem length_children (h : v.Truthful) : v.children.length = v.claimed := by
  cases h with
  | intro counts _ => exact length_beforeGap counts

theorem of_mem_children (h : v.Truthful) {c : NodeView} (hc : c ∈ v.children) : c.Truthful := by
  cases h with
  | intro _ descends =>
    obtain ⟨i, hi⟩ := exists_join_of_mem hc
    exact descends i c hi

/-- A node may have any number of positions without a child behind those that it claims. -/
theorem of_children {cs : List NodeView} (hcs : ∀ c ∈ cs, c.Truthful) (name : String)
    (behind : Nat) :
    (NodeView.mk name cs.length (cs.map some ++ List.replicate behind none)).Truthful := by
  have hchild (i : Nat) : (cs.map some ++ List.replicate behind none)[i]?.join = cs[i]? := by
    by_cases hi : i < cs.length
    · rw [List.getElem?_append_left (by simpa using hi), List.getElem?_map]
      cases cs[i]? <;> rfl
    · rw [List.getElem?_append_right (by simpa using hi), List.getElem?_replicate,
        List.getElem?_eq_none (Nat.le_of_not_lt hi)]
      split <;> rfl
  refine .intro (fun i => ?_) fun i c hc => ?_
  · rw [child?, slots, hchild, claimed]
    simp
  · rw [child?, slots, hchild] at hc
    exact hcs c (List.mem_of_getElem? hc)

/-- What holds of a truthful node if it holds of the children that a walk meets holds of all. -/
theorem induct {motive : NodeView → Prop} (h : v.Truthful)
    (step : ∀ v : NodeView, v.Truthful → (∀ c ∈ v.children, motive c) → motive v) : motive v := by
  induction h with
  | @intro v counts descends ih =>
    refine step v ⟨counts, descends⟩ fun c hc => ?_
    obtain ⟨i, hi⟩ := exists_join_of_mem hc
    exact ih i c hi

end Truthful

end NodeView

namespace Graph

@[simp] theorem name_view (g : Graph) : g.view.name = g.name := by
  cases g
  rw [view]
  rfl

@[simp] theorem claimed_view (g : Graph) : g.view.claimed = g.children.length := by
  cases g
  rw [view]
  rfl

theorem beforeGap_viewAll (gs : List Graph) : NodeView.beforeGap (viewAll gs) = gs.map view := by
  induction gs with
  | nil => simp [viewAll, NodeView.beforeGap]
  | cons g gs ih => simp [viewAll, NodeView.beforeGap, ih]

@[simp] theorem children_view (g : Graph) : g.view.children = g.children.map view := by
  cases g
  rw [view, NodeView.children, NodeView.slots, beforeGap_viewAll]
  rfl

mutual

/-- The copy of a graph is the graph. -/
@[simp] theorem copy_view : ∀ g : Graph, g.view.copy = g
  | node name children => by rw [view, NodeView.copy, copySlots_viewAll children]

theorem copySlots_viewAll : ∀ gs : List Graph, NodeView.copySlots (viewAll gs) = gs
  | [] => by simp [viewAll, NodeView.copySlots]
  | g :: gs => by rw [viewAll, NodeView.copySlots, copy_view g, copySlots_viewAll gs]

end

theorem viewAll_eq (gs : List Graph) : viewAll gs = (gs.map view).map some := by
  induction gs with
  | nil => simp [viewAll]
  | cons g gs ih => simp [viewAll, ih]

mutual

/-- A graph claims the children that it has. -/
theorem truthful_view : ∀ g : Graph, g.view.Truthful
  | node name children => by
    have h := NodeView.Truthful.of_children (truthful_views children) name 0
    rwa [List.length_map, List.replicate_zero, List.append_nil, ← viewAll_eq, ← view] at h

theorem truthful_views : ∀ gs : List Graph, ∀ v ∈ gs.map view, v.Truthful
  | [], v, hv => by cases hv
  | g :: gs, v, hv => by
    rcases List.mem_cons.mp hv with rfl | hv
    · exact truthful_view g
    · exact truthful_views gs v hv

end

end Graph

namespace NodeView

variable {v : NodeView}

@[simp] theorem name_copy (v : NodeView) : v.copy.name = v.name := by
  rw [copy_eq]
  rfl

@[simp] theorem children_copy (v : NodeView) : v.copy.children = v.children.map copy := by
  rw [copy_eq]
  rfl

/-- A walk over a copy meets the copies of what a walk over the node meets. -/
theorem children_view_copy (v : NodeView) :
    v.copy.view.children = v.children.map fun c => c.copy.view := by
  rw [Graph.children_view, children_copy, List.map_map]
  rfl

theorem Truthful.claimed_view_copy (h : v.Truthful) : v.copy.view.claimed = v.claimed := by
  rw [Graph.claimed_view, children_copy, List.length_map, h.length_children]

theorem Truthful.fits_view_copy (h : v.Truthful) : v.copy.view.fits = v.fits := by
  refine h.induct (motive := fun v => v.copy.view.fits = v.fits) fun v hv ih => ?_
  have hall : (v.children.map fun c => c.copy.view).all fits = v.children.all fits := by
    rw [Bool.eq_iff_iff, List.all_map, List.all_eq_true, List.all_eq_true]
    refine forall_congr' fun c => forall_congr' fun hc => ?_
    rw [Function.comp_apply, ih c hc]
  rw [fits_eq, fits_eq v, hv.claimed_view_copy, children_view_copy, hall, List.isEmpty_map]

end NodeView

end HostCall
