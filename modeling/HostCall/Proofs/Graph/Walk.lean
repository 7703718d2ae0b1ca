import HostCall.Proofs.Graph.Copy
import Mathlib.Logic.Function.Iterate

/-!
# Walks over children

A walk asks for the child at one position after the other and ends at the first position without
one. What it meets from a position on is its rest, of which each step takes the first child. A walk
that has ended may be asked again, and answers again that there is no child. What it promises
before a step is true at every step if and only if the node claims as many children as a walk meets.
-/

namespace HostCall.NodeView

theorem getElem?_beforeGap_eq_some_iff {α : Type _} {slots : List (Option α)} {i : Nat} {a : α} :
    (beforeGap slots)[i]? = some a ↔
      slots[i]?.join = some a ∧ ∀ j < i, slots[j]?.join.isSome = true := by
  induction slots generalizing i with
  | nil => simp [beforeGap]
  | cons slot slots ih =>
    cases i with
    | zero => cases slot <;> simp [beforeGap]
    | succ i =>
      cases slot with
      | none =>
        refine iff_of_false (by simp [beforeGap]) fun h => ?_
        exact Bool.noConfusion (h.2 0 (Nat.succ_pos i))
      | some b =>
        rw [beforeGap, List.getElem?_cons_succ, ih, List.getElem?_cons_succ,
          Nat.forall_lt_succ_left]
        simp

/-- The child met at a position stands there, and none is missing before it. -/
theorem getElem?_children_eq_some_iff {v c : NodeView} {i : Nat} :
    v.children[i]? = some c ↔ v.child? i = some c ∧ ∀ j < i, (v.child? j).isSome = true :=
  getElem?_beforeGap_eq_some_iff

theorem isSome_child?_of_lt {v : NodeView} {i : Nat} (hi : i < v.children.length) :
    (v.child? i).isSome = true := by
  rw [(getElem?_children_eq_some_iff.mp (List.getElem?_eq_getElem hi)).1]
  rfl

/-- A walk ends at the first position whose child is missing. -/
theorem child?_length_children (v : NodeView) : v.child? v.children.length = none := by
  cases h : v.child? v.children.length with
  | none => rfl
  | some c =>
    have hmet := getElem?_children_eq_some_iff.mpr ⟨h, fun _ => isSome_child?_of_lt⟩
    rw [List.getElem?_eq_none (Nat.le_refl _)] at hmet
    cases hmet

namespace Walk

variable {w w' : Walk} {c : NodeView}

/-- The children that a walk still meets. -/
def rest (w : Walk) : List NodeView := beforeGap (w.node.slots.drop w.position)

@[simp] theorem rest_start (v : NodeView) : (start v).rest = v.children := rfl

private theorem child?_eq_join_head? (w : Walk) :
    w.node.child? w.position = (w.node.slots.drop w.position).head?.join := by
  rw [child?, List.head?_drop]

theorem rest_of_next?_eq_none (h : w.next? = none) : w.rest = [] := by
  rw [next?, Option.map_eq_none_iff, child?_eq_join_head?] at h
  rw [rest]
  cases hs : w.node.slots.drop w.position with
  | nil => rfl
  | cons slot slots =>
    rw [hs] at h
    cases slot with
    | none => rfl
    | some c => cases h

theorem rest_of_next?_eq_some (h : w.next? = some (c, w')) : w.rest = c :: w'.rest := by
  obtain ⟨-, rfl⟩ := position_lt_of_next? h
  simp only [next?, Option.map_eq_some_iff, Prod.mk.injEq, and_true, exists_eq_right,
    child?_eq_join_head?] at h
  rw [rest, rest, ← List.tail_drop]
  cases hs : w.node.slots.drop w.position with
  | nil =>
    rw [hs] at h
    cases h
  | cons slot slots =>
    rw [hs] at h
    cases slot with
    | none => cases h
    | some d =>
      cases Option.some.inj h
      rfl

/-! ## One step after the other -/

/-- The child that the next step meets. -/
def met? (w : Walk) : Option NodeView := w.next?.map Prod.fst

/-- The walk after a step. -/
def advance (w : Walk) : Walk := (w.next?.map Prod.snd).getD w

theorem met?_eq_head?_rest (w : Walk) : w.met? = w.rest.head? := by
  rw [met?]
  cases h : w.next? with
  | none =>
    rw [rest_of_next?_eq_none h]
    rfl
  | some step =>
    rw [rest_of_next?_eq_some h]
    rfl

theorem rest_advance (w : Walk) : w.advance.rest = w.rest.tail := by
  rw [advance]
  cases h : w.next? with
  | none =>
    rw [rest_of_next?_eq_none h]
    exact rest_of_next?_eq_none h
  | some step =>
    rw [rest_of_next?_eq_some h]
    rfl

@[simp] theorem node_advance (w : Walk) : w.advance.node = w.node := by
  rw [advance]
  cases h : w.next? with
  | none => rfl
  | some step =>
    obtain ⟨-, hstep⟩ := position_lt_of_next? h
    rw [Option.map_some, Option.getD_some, hstep]

/-- A step moves on by one position, unless no child is left. -/
theorem position_advance (w : Walk) :
    w.advance.position = w.position + min 1 w.rest.length := by
  rw [advance]
  cases h : w.next? with
  | none =>
    rw [rest_of_next?_eq_none h]
    rfl
  | some step =>
    obtain ⟨-, hstep⟩ := position_lt_of_next? h
    rw [rest_of_next?_eq_some h, Option.map_some, Option.getD_some, hstep, List.length_cons]
    simp only
    omega

theorem rest_iterate (w : Walk) (k : Nat) : (advance^[k] w).rest = w.rest.drop k := by
  induction k generalizing w with
  | zero => rfl
  | succ k ih => rw [Function.iterate_succ_apply, ih, rest_advance, List.drop_tail]

theorem node_iterate (w : Walk) (k : Nat) : (advance^[k] w).node = w.node := by
  induction k generalizing w with
  | zero => rfl
  | succ k ih => rw [Function.iterate_succ_apply, ih, node_advance]

theorem position_iterate (w : Walk) (k : Nat) :
    (advance^[k] w).position = w.position + min k w.rest.length := by
  induction k generalizing w with
  | zero => simp
  | succ k ih =>
    rw [Function.iterate_succ_apply, ih, position_advance, rest_advance, List.length_tail]
    omega

/-- The steps of a walk are those up to the first one that meets no child. -/
theorem steps_eq (w : Walk) :
    w.steps = (List.range (w.rest.length + 1)).map fun k =>
      ((advance^[k] w).met?, (advance^[k] w).remaining) := by
  fun_induction steps w with
  | case1 w h =>
    rw [rest_of_next?_eq_none h]
    simp [met?, h]
  | case2 w c w' h ih =>
    have hadvance : w.advance = w' := by
      rw [advance, h]
      rfl
    rw [rest_of_next?_eq_some h, List.length_cons, List.range_succ_eq_map, List.map_cons,
      List.map_map, ih]
    simp only [Function.comp_def, Function.iterate_succ_apply, hadvance]
    simp [met?, h]

end Walk

/-- What a walk over the children of a node meets and promises, whatever the node claims. The walk
ends at the position that is the number of children met. -/
structure Walked (v : NodeView) : Prop where
  absent : v.child? v.children.length = none
  present : ∀ i < v.children.length, (v.child? i).isSome = true
  /-- A step meets the child at its position, and none once a position had no child. -/
  meets : ∀ k, (Walk.advance^[k] (.start v)).met? =
    if k < v.children.length then v.child? k else none
  /-- The two bounds before a step are one number: the claimed count less the children met, or
  zero where more were met than claimed. -/
  promises : ∀ k, ∃ n : Nat, (Walk.advance^[k] (.start v)).bounds = (n, some n) ∧
    (n : Int) = max 0 ((v.claimed : Int) - min k v.children.length)
  /-- Where a node claims exactly the children that it has, both bounds are, before every step, the
  number of children still to come. -/
  truthful : (∀ i, (v.child? i).isSome = true ↔ i < v.claimed) → ∀ k,
    (Walk.advance^[k] (.start v)).bounds =
      (v.children.length - k, some (v.children.length - k))
  /-- They are so only where the node claims as many children as a walk meets. -/
  exact_iff : (∀ k, (Walk.advance^[k] (.start v)).bounds =
      (v.children.length - k, some (v.children.length - k))) ↔ v.claimed = v.children.length
  /-- The recorded steps of a walk are these steps, up to the first one without a child. -/
  steps : (Walk.start v).steps = (List.range (v.children.length + 1)).map fun k =>
    ((Walk.advance^[k] (.start v)).met?, (Walk.advance^[k] (.start v)).remaining)

theorem getElem?_children_eq (v : NodeView) (k : Nat) :
    v.children[k]? = if k < v.children.length then v.child? k else none := by
  by_cases hk : k < v.children.length
  · rw [if_pos hk, List.getElem?_eq_getElem hk]
    exact (getElem?_children_eq_some_iff.mp (List.getElem?_eq_getElem hk)).1.symm
  · rw [if_neg hk, List.getElem?_eq_none (Nat.le_of_not_lt hk)]

theorem remaining_iterate (v : NodeView) (k : Nat) :
    (Walk.advance^[k] (.start v)).remaining = v.claimed - min k v.children.length := by
  rw [Walk.remaining, Walk.node_iterate, Walk.position_iterate, Walk.rest_start]
  simp [Walk.start]

theorem bounds_exact_iff (v : NodeView) :
    (∀ k, (Walk.advance^[k] (.start v)).bounds =
      (v.children.length - k, some (v.children.length - k))) ↔ v.claimed = v.children.length := by
  simp only [Walk.bounds, remaining_iterate, Prod.mk.injEq, Option.some.injEq, and_self]
  constructor
  · intro h
    have hstart := h 0
    omega
  · intro h k
    omega

theorem walked (v : NodeView) : v.Walked where
  absent := v.child?_length_children
  present _ := isSome_child?_of_lt
  meets k := by
    rw [Walk.met?_eq_head?_rest, Walk.rest_iterate, List.head?_drop, Walk.rest_start,
      getElem?_children_eq]
  promises k := by
    refine ⟨_, rfl, ?_⟩
    rw [remaining_iterate]
    omega
  truthful counts := v.bounds_exact_iff.mpr (length_beforeGap counts).symm
  exact_iff := v.bounds_exact_iff
  steps := Walk.steps_eq _

end HostCall.NodeView
