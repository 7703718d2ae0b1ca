import HostCall.Call.Arguments
import HostCall.Proofs.Trace
import Mathlib.Data.List.Forall2

/-!
# What the evaluation of arguments answers

The children that a walk meets are evaluated in order. Either all of them have values, and these
are the arguments, or there is a first one whose evaluation panics, and then none behind it is
evaluated. A call that claims more arguments than allowed has none of its children evaluated.
-/

namespace HostCall

namespace NodeView

/-- A call claims more arguments than a bound allows. -/
def Exceeds (call : NodeView) (bound? : Option Nat) (max : Nat) : Prop :=
  bound? = some max ∧ max < call.claimed

/-- No bound is exceeded. -/
def Within (call : NodeView) (bound? : Option Nat) : Prop := ∀ max, ¬ call.Exceeds bound? max

end NodeView

namespace Evaluator

/-- The evaluation of the node at a position panics. -/
def PanicsAt (evaluator : Evaluator) (nodes : List NodeView) (i : Nat) (p : Panic) : Prop :=
  ∃ node, nodes[i]? = some node ∧ (evaluator node).answer = .error p

/-- The evaluation of the node at a position panics, and no earlier one does. -/
def PanicsFirst (evaluator : Evaluator) (nodes : List NodeView) (i : Nat) (p : Panic) : Prop :=
  evaluator.PanicsAt nodes i p ∧ ∀ j < i, ∀ q, ¬ evaluator.PanicsAt nodes j q

/-- The values of nodes, in order. -/
def Yields (evaluator : Evaluator) (nodes : List NodeView) (values : List Value) : Prop :=
  List.Forall₂ (fun node v => (evaluator node).answer = .ok v) nodes values

/-- What others see of the evaluation of nodes, each of them once and in order. -/
def seen (evaluator : Evaluator) (nodes : List NodeView) : List String :=
  nodes.flatMap fun node => (evaluator node).events

variable {evaluator : Evaluator} {node : NodeView} {nodes : List NodeView}

private theorem panicsFirst_zero {p : Panic} (h : (evaluator node).answer = .error p) :
    evaluator.PanicsFirst (node :: nodes) 0 p :=
  ⟨⟨node, rfl, h⟩, fun _ hj => absurd hj (Nat.not_lt_zero _)⟩

private theorem panicsFirst_succ {v : Value} {i : Nat} {p : Panic}
    (hv : (evaluator node).answer = .ok v) (h : evaluator.PanicsFirst nodes i p) :
    evaluator.PanicsFirst (node :: nodes) (i + 1) p := by
  refine ⟨h.1, ?_⟩
  intro j hj q hq
  cases j with
  | zero =>
    obtain ⟨m, hm, hp⟩ := hq
    rw [← Option.some.inj hm, hv] at hp
    cases hp
  | succ j => exact h.2 j (by omega) q hq

/-- Nodes all have values, or there is a first one whose evaluation panics. -/
theorem yields_or_panicsFirst (evaluator : Evaluator) (nodes : List NodeView) :
    (∃ values, evaluator.Yields nodes values) ∨ ∃ i p, evaluator.PanicsFirst nodes i p := by
  induction nodes with
  | nil => exact .inl ⟨[], .nil⟩
  | cons node nodes ih =>
    cases ha : (evaluator node).answer with
    | error p => exact .inr ⟨0, p, panicsFirst_zero ha⟩
    | ok v =>
      rcases ih with ⟨values, hv⟩ | ⟨i, p, hp⟩
      · exact .inl ⟨v :: values, .cons ha hv⟩
      · exact .inr ⟨i + 1, p, panicsFirst_succ ha hp⟩

end Evaluator

namespace Arguments

variable {evaluator : Evaluator} {nodes : List NodeView}

private theorem contain_ok {r : Response} {v : Value} (h : r.answer = .ok v) :
    r.contain = .ok v := by
  rw [Response.contain, h]
  rfl

private theorem contain_error {r : Response} {p : Panic} (h : r.answer = .error p) :
    r.contain = .error p.error := by
  rw [Response.contain, h]
  rfl

theorem evaluate_of_yields {values : List Value} (h : evaluator.Yields nodes values)
    (name : String) (index : Nat) :
    (evaluate name evaluator index nodes).value = .ok values ∧
      (evaluate name evaluator index nodes).seen = evaluator.seen nodes := by
  induction h generalizing index with
  | nil => exact ⟨rfl, rfl⟩
  | @cons node v nodes values ha _ ih =>
    obtain ⟨hvalue, hseen⟩ := ih (index + 1)
    simp only [evaluate, contain_ok ha, Traced.value_bind, Traced.seen_bind, Traced.value_pure,
      Traced.seen_pure, Traced.seen_events, hvalue, hseen, List.append_nil]
    exact ⟨rfl, rfl⟩

theorem evaluate_of_panicsFirst {i : Nat} {p : Panic} (h : evaluator.PanicsFirst nodes i p)
    (name : String) (index : Nat) :
    (evaluate name evaluator index nodes).value = .error (.evaluation name (index + i) p.error) ∧
      (evaluate name evaluator index nodes).seen = evaluator.seen (nodes.take (i + 1)) := by
  induction nodes generalizing i index with
  | nil =>
    obtain ⟨⟨node, hi, -⟩, -⟩ := h
    cases hi
  | cons node nodes ih =>
    cases i with
    | zero =>
      obtain ⟨⟨m, hm, ha⟩, -⟩ := h
      cases Option.some.inj hm
      simp only [evaluate, contain_error ha, Traced.value_bind, Traced.seen_bind,
        Traced.value_pure, Traced.seen_pure, Traced.seen_events, List.append_nil]
      exact ⟨rfl, by simp [Evaluator.seen]⟩
    | succ i =>
      -- the first node does not panic, since a later one is the first to do so
      cases ha : (evaluator node).answer with
      | error q => exact absurd ⟨node, rfl, ha⟩ (h.2 0 (by omega) q)
      | ok v =>
        have htail : evaluator.PanicsFirst nodes i p :=
          ⟨h.1, fun j hj q hq => h.2 (j + 1) (by omega) q hq⟩
        obtain ⟨hvalue, hseen⟩ := ih htail (index + 1)
        simp only [evaluate, contain_ok ha, Traced.value_bind, Traced.seen_bind,
          Traced.value_pure, Traced.seen_pure, Traced.seen_events, hvalue, hseen, List.append_nil]
        exact ⟨by rw [Nat.add_right_comm]; rfl, rfl⟩

private theorem seen_describe (name : String) (index : Nat) (values : List Value) :
    (Traced.leave (describe name index values)).seen = [] := by
  induction values generalizing index with
  | nil => rfl
  | cons v values ih => exact ih (index + 1)

section OfCall

variable {call : NodeView} {maxArgs : Option Nat}

theorem filter_of_exceeds {max : Nat} (h : call.Exceeds maxArgs max) :
    maxArgs.filter (· < call.claimed) = some max := by
  rw [h.1, Option.filter_some, if_pos (by simpa using h.2)]

theorem filter_of_within (h : call.Within maxArgs) :
    maxArgs.filter (· < call.claimed) = none := by
  cases maxArgs with
  | none => rfl
  | some max =>
    have hle : ¬ max < call.claimed := fun hlt => h max ⟨rfl, hlt⟩
    rw [Option.filter_some, if_neg (by simpa using hle)]

/-- Nothing is evaluated for a call that claims too many arguments. -/
theorem ofCall_of_exceeds {max : Nat} (h : call.Exceeds maxArgs max) (evaluator : Evaluator) :
    (ofCall call evaluator maxArgs).value =
        .error (.tooManyArguments call.name call.claimed max) ∧
      (ofCall call evaluator maxArgs).seen = [] := by
  rw [ofCall, filter_of_exceeds h]
  exact ⟨rfl, rfl⟩

theorem ofCall_of_panicsFirst (hw : call.Within maxArgs) {i : Nat} {p : Panic}
    (h : evaluator.PanicsFirst call.children i p) :
    (ofCall call evaluator maxArgs).value = .error (.evaluation call.name i p.error) ∧
      (ofCall call evaluator maxArgs).seen = evaluator.seen (call.children.take (i + 1)) := by
  obtain ⟨hvalue, hseen⟩ := evaluate_of_panicsFirst h call.name 0
  rw [ofCall, filter_of_within hw]
  simp only [Traced.value_bind, Traced.seen_bind, hvalue, hseen, Traced.value_pure,
    Traced.seen_pure, List.append_nil, Nat.zero_add, and_self]

theorem ofCall_of_yields (hw : call.Within maxArgs) {values : List Value}
    (h : evaluator.Yields call.children values) :
    (ofCall call evaluator maxArgs).value = .ok ⟨values⟩ ∧
      (ofCall call evaluator maxArgs).seen = evaluator.seen call.children := by
  obtain ⟨hvalue, hseen⟩ := evaluate_of_yields h call.name 0
  rw [ofCall, filter_of_within hw]
  simp only [Traced.value_bind, Traced.seen_bind, hvalue, hseen, Traced.value_pure,
    Traced.seen_pure, seen_describe, List.append_nil, and_self]

end OfCall

end Arguments

end HostCall
