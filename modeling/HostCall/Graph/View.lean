import HostCall.Graph.Basic

/-!
# Node views

A caller may hand over any tree that answers three questions about a node: its name, how many
children it claims to have, and which child stands at a position. The claimed count and the
answers about positions need not agree. A view records those answers; walking a view stops at
the first position without a child, and a copy keeps exactly what a walk meets. Whoever holds a
copy sets room aside for it, and a node can claim more children than there can be room for.
-/

namespace HostCall

/-- A node as its owner describes it: a name, a claimed child count, and the child at each
position from zero on. A position past the end of the list has no child. -/
inductive NodeView where
  | mk (name : String) (claimed : Nat) (slots : List (Option NodeView))
deriving Inhabited

namespace NodeView

def name : NodeView → String
  | mk name _ _ => name

/-- The child count that the node claims to have. -/
def claimed : NodeView → Nat
  | mk _ claimed _ => claimed

def slots : NodeView → List (Option NodeView)
  | mk _ _ slots => slots

/-- Child at a position, counted from zero. -/
def child? (v : NodeView) (i : Nat) : Option NodeView := v.slots[i]?.join

/-- A node is empty when it claims no children, whatever stands at its positions. -/
def isEmpty (v : NodeView) : Bool := v.claimed == 0

/-- The values before the first gap of a list. -/
def beforeGap {α : Type _} : List (Option α) → List α
  | some a :: rest => a :: beforeGap rest
  | _ => []

/-- The children that a walk meets: those before the first position without a child. -/
def children (v : NodeView) : List NodeView := beforeGap v.slots

mutual

/-- An owned copy of everything that a walk over the node and its descendants meets. -/
def copy : NodeView → Graph
  | mk name _ slots => .node name (copySlots slots)

def copySlots : List (Option NodeView) → List Graph
  | some v :: rest => copy v :: copySlots rest
  | _ => []

end

/-- The most children that room can be set aside for: at 48 bytes each, more of them would take
more than `2 ^ 63 - 1` bytes. -/
def maxRoom : Nat := 0x7FFFFFFFFFFFFFFF / 48

/-- Whether room can be set aside for the children of a node. It is set aside when the first child
is met, and for as many children as the node claims. -/
def hasRoom (claimed : Nat) (slots : List (Option NodeView)) : Bool :=
  slots.head?.join.isNone || claimed ≤ maxRoom

mutual

/-- Whether room can be set aside for a copy: for the node and for all that a walk meets. -/
def fits : NodeView → Bool
  | mk _ claimed slots => fitsSlots slots && hasRoom claimed slots

def fitsSlots : List (Option NodeView) → Bool
  | some v :: rest => fits v && fitsSlots rest
  | _ => true

end

/-- A walk over the children of a node: the node and the next position. -/
structure Walk where
  node : NodeView
  position : Nat

namespace Walk

def start (v : NodeView) : Walk := ⟨v, 0⟩

/-- The next child and the walk after it; a finished walk stays where it is. -/
def next? (w : Walk) : Option (NodeView × Walk) :=
  (w.node.child? w.position).map fun c => (c, { w with position := w.position + 1 })

/-- How many children the node still promises. -/
def remaining (w : Walk) : Nat := w.node.claimed - w.position

/-- The least and the most children still to come, as far as the node promises. -/
def bounds (w : Walk) : Nat × Option Nat := (w.remaining, some w.remaining)

/-- A child exists only at positions inside the slots. -/
theorem position_lt_of_next? {w w' : Walk} {c : NodeView} (h : w.next? = some (c, w')) :
    w.position < w.node.slots.length ∧ w' = { w with position := w.position + 1 } := by
  simp only [next?, Option.map_eq_some_iff, Prod.mk.injEq] at h
  obtain ⟨d, hd, _, rfl⟩ := h
  refine ⟨?_, rfl⟩
  rw [child?] at hd
  cases hs : w.node.slots[w.position]? with
  | none => simp [hs] at hd
  | some s => exact (List.getElem?_eq_some_iff.mp hs).1

/-- What a walk answers step by step: before each step the count still promised, and the child
met, or none at the step that ends the walk. -/
def steps (w : Walk) : List (Option NodeView × Nat) :=
  match _h : w.next? with
  | none => [(none, w.remaining)]
  | some (c, w') => (some c, w.remaining) :: steps w'
termination_by w.node.slots.length - w.position
decreasing_by
  obtain ⟨hlt, rfl⟩ := position_lt_of_next? _h
  simp only
  omega

end Walk

mutual

/-- Whether a node and all its descendants claim exactly the children that they have. -/
def truthful : NodeView → Bool
  | mk _ claimed slots => claimed == slots.length && truthfulSlots slots

def truthfulSlots : List (Option NodeView) → Bool
  | some v :: rest => truthful v && truthfulSlots rest
  | none :: _ => false
  | [] => true

end

end NodeView

namespace Graph

mutual

/-- A graph as a node view; the claimed count is the true one. -/
def view : Graph → NodeView
  | node name children => .mk name children.length (viewAll children)

def viewAll : List Graph → List (Option NodeView)
  | [] => []
  | c :: cs => some (view c) :: viewAll cs

end

end Graph

end HostCall
