import HostCall.Proofs.Call.Evaluation
import HostCall.Proofs.Graph.Copy
import HostCall.Proofs.Graph.Walk

/-!
# How arguments are gathered

A walk over the children of a call evaluates one after the other and puts each value and its type
at the ends of two columns. The columns stay aligned, so the values say it all, and the walk ends
where a child is missing or its evaluation panics.
-/

namespace HostCall

open NodeView (Walk)

/-- Arguments as they are gathered: their types and their values, each in a column of its own. -/
structure Columns where
  types : List CallType
  values : List Value

namespace Columns

def empty : Columns := ⟨[], []⟩

def push (c : Columns) (v : Value) : Columns := ⟨c.types ++ [v.callType], c.values ++ [v]⟩

def pushAll (c : Columns) (values : List Value) : Columns := values.foldl push c

/-- The columns of some values, collected one after the other. -/
def ofValues (values : List Value) : Columns := empty.pushAll values

/-- Each type is that of the value beside it, and neither column is longer than the other. -/
def Aligned (c : Columns) : Prop := List.Forall₂ (fun type v => type = v.callType) c.types c.values

/-- Evaluates the children that a walk still meets, up to the first that panics. -/
def gather (name : String) (evaluator : Evaluator) (w : Walk) (c : Columns) :
    Traced (Except CallError Columns) :=
  match _h : w.next? with
  | none => return .ok c
  | some (child, w') => do
    let response := evaluator child
    .events response.events
    match response.contain with
    | .error e => return .error (.evaluation name w.position e)
    | .ok v => gather name evaluator w' (c.push v)
termination_by w.node.slots.length - w.position
decreasing_by
  obtain ⟨hlt, rfl⟩ := Walk.position_lt_of_next? _h
  simp only
  omega

/-- The log records that list the columns side by side. -/
def describe (name : String) (c : Columns) : List Note :=
  (c.types.zip c.values).mapIdx fun i (type, v) =>
    .log .trace (name ++ " arg " ++ toString i ++ ": " ++ v.inspect ++ " -> " ++ type.name)

/-- Gathers the arguments of a call, unless it claims more of them than allowed. -/
def ofCall (call : NodeView) (evaluator : Evaluator) (maxArgs : Option Nat) :
    Traced (Except CallError Columns) :=
  match maxArgs.filter (· < call.claimed) with
  | some max => return .error (.tooManyArguments call.name call.claimed max)
  | none => do
    match ← gather call.name evaluator (.start call) empty with
    | .error e => return .error e
    | .ok c =>
      .leave (c.describe call.name)
      return .ok c

variable {c : Columns} {v : Value} {values : List Value}

theorem aligned_iff : c.Aligned ↔ c.types = c.values.map Value.callType := by
  rw [Aligned, ← List.forall₂_eq_eq_eq, List.forall₂_map_right_iff]

theorem Aligned.length_eq (h : c.Aligned) : c.types.length = c.values.length :=
  List.Forall₂.length_eq h

theorem aligned_empty : empty.Aligned := .nil

theorem Aligned.push (h : c.Aligned) (v : Value) : (c.push v).Aligned :=
  List.rel_append h (.cons rfl .nil)

theorem Aligned.pushAll (h : c.Aligned) (values : List Value) : (c.pushAll values).Aligned := by
  induction values generalizing c with
  | nil => exact h
  | cons v values ih => exact ih (h.push v)

theorem values_pushAll (c : Columns) (values : List Value) :
    (c.pushAll values).values = c.values ++ values := by
  induction values generalizing c with
  | nil => exact (List.append_nil _).symm
  | cons v values ih => exact (ih (c.push v)).trans (List.append_assoc ..)

end Columns

/-- The columns of arguments. -/
def Arguments.columns (args : Arguments) : Columns := ⟨args.types, args.values⟩

theorem Arguments.aligned_columns (args : Arguments) : args.columns.Aligned :=
  Columns.aligned_iff.mpr rfl

namespace Columns

variable {name : String} {evaluator : Evaluator}

private theorem map_pushAll_cons (c : Columns) (v : Value) (more : Except CallError (List Value)) :
    more.map (c.push v).pushAll = (more.map (v :: ·)).map c.pushAll := by
  cases more <;> rfl

/-- To gather is to evaluate what is left of a walk and to push the values. -/
theorem gather_eq (w : Walk) (c : Columns) :
    (gather name evaluator w c).value =
        (Arguments.evaluate name evaluator w.position w.rest).value.map c.pushAll ∧
      (gather name evaluator w c).notes =
        (Arguments.evaluate name evaluator w.position w.rest).notes := by
  fun_induction gather name evaluator w c with
  | case1 w c h =>
    rw [Walk.rest_of_next?_eq_none h]
    exact ⟨rfl, rfl⟩
  | case2 w c child w' h response ih =>
    rw [Walk.rest_of_next?_eq_some h, Arguments.evaluate]
    obtain ⟨-, rfl⟩ := Walk.position_lt_of_next? h
    simp only [Traced.value_bind, Traced.notes_bind]
    cases hr : response.contain with
    | error e => exact ⟨rfl, rfl⟩
    | ok v =>
      simp only [ih, Traced.value_bind, Traced.notes_bind, Traced.value_pure, Traced.notes_pure,
        List.append_nil, map_pushAll_cons, true_and]
      rfl

theorem ofValues_eq (values : List Value) :
    ofValues values = ⟨values.map Value.callType, values⟩ := by
  have hvalues : (ofValues values).values = values := values_pushAll empty values
  have htypes := aligned_iff.mp (aligned_empty.pushAll values)
  rw [← ofValues, hvalues] at htypes
  calc ofValues values
      = ⟨(ofValues values).types, (ofValues values).values⟩ := rfl
    _ = ⟨values.map Value.callType, values⟩ := by rw [htypes, hvalues]

private theorem describe_from (name : String) (index : Nat) (values : List Value) :
    (((values.map Value.callType).zip values).mapIdx fun i (type, v) =>
      Note.log .trace (name ++ " arg " ++ toString (index + i) ++ ": " ++ v.inspect ++ " -> " ++
        type.name)) = Arguments.describe name index values := by
  induction values generalizing index with
  | nil => rfl
  | cons v values ih =>
    rw [Arguments.describe, ← ih (index + 1), List.map_cons, List.zip_cons_cons, List.mapIdx_cons]
    simp only [Nat.add_zero, Nat.add_assoc, Nat.add_comm 1]

theorem describe_ofValues (name : String) (values : List Value) :
    (ofValues values).describe name = Arguments.describe name 0 values := by
  rw [ofValues_eq, describe, ← describe_from]
  simp only [Nat.zero_add]

theorem gather_start (call : NodeView) (evaluator : Evaluator) :
    (gather call.name evaluator (.start call) empty).value =
        (Arguments.evaluate call.name evaluator 0 call.children).value.map ofValues ∧
      (gather call.name evaluator (.start call) empty).notes =
        (Arguments.evaluate call.name evaluator 0 call.children).notes :=
  gather_eq (.start call) empty

/-- What a call gathers in columns is what it has as arguments, and the way there is the same. -/
theorem ofCall_eq (call : NodeView) (evaluator : Evaluator) (maxArgs : Option Nat) :
    (ofCall call evaluator maxArgs).value =
        (Arguments.ofCall call evaluator maxArgs).value.map Arguments.columns ∧
      (ofCall call evaluator maxArgs).notes =
        (Arguments.ofCall call evaluator maxArgs).notes := by
  rw [ofCall, Arguments.ofCall]
  cases maxArgs.filter (· < call.claimed) with
  | some max => exact ⟨rfl, rfl⟩
  | none =>
    obtain ⟨hvalue, hnotes⟩ := gather_start call evaluator
    simp only [Traced.value_bind, Traced.notes_bind, hvalue, hnotes]
    cases (Arguments.evaluate call.name evaluator 0 call.children).value with
    | error e => exact ⟨rfl, rfl⟩
    | ok values =>
      refine ⟨congrArg Except.ok (ofValues_eq values), ?_⟩
      simp only [Except.map, Traced.notes_bind, Traced.notes_pure]
      rw [describe_ofValues]

theorem aligned_of_ofCall_eq_ok {call : NodeView} {maxArgs : Option Nat} {c : Columns}
    (h : (ofCall call evaluator maxArgs).value = .ok c) : c.Aligned := by
  rw [(ofCall_eq call evaluator maxArgs).1] at h
  cases hargs : (Arguments.ofCall call evaluator maxArgs).value with
  | error e =>
    rw [hargs] at h
    cases h
  | ok args =>
    rw [hargs] at h
    cases h
    exact args.aligned_columns

end Columns

namespace Value

variable {v : Value}

theorem callType_ne_int : v.callType ≠ .int := by
  cases v <;> simp [callType]

theorem callType_ne_object : v.callType ≠ .object := by
  cases v <;> simp [callType]

theorem callType_eq_node_iff : v.callType = .node ↔ ∃ g, v = .node g := by
  cases v <;> simp [callType]

end Value

/-- An evaluator that answers as another one does and shows of each node what it is told to. -/
def Evaluator.showing (evaluator : Evaluator) (tell : NodeView → List String) : Evaluator :=
  fun v => { answer := (evaluator v).answer, events := tell v }

namespace Arguments

variable {call : NodeView} {evaluator : Evaluator} {maxArgs : Option Nat}

/-- These nodes are evaluated for a call, each once and in order, and no others: whatever the
evaluator shows of the nodes, this is seen of these. -/
def Asks (call : NodeView) (evaluator : Evaluator) (maxArgs : Option Nat)
    (nodes : List NodeView) : Prop :=
  ∀ tell, (ofCall call (evaluator.showing tell) maxArgs).seen = nodes.flatMap tell

/-- How the evaluation of a call ends, and which nodes are evaluated until then. -/
inductive Ends (call : NodeView) (evaluator : Evaluator) (maxArgs : Option Nat) :
    Except CallError Arguments → List NodeView → Prop
  | exceeded {max : Nat} (exceeds : call.Exceeds maxArgs max) :
      Ends call evaluator maxArgs (.error (.tooManyArguments call.name call.claimed max)) []
  | panicked {index : Nat} {p : Panic} (within : call.Within maxArgs)
      (panics : evaluator.PanicsFirst call.children index p) :
      Ends call evaluator maxArgs (.error (.evaluation call.name index p.error))
        (call.children.take (index + 1))
  | gathered {values : List Value} (within : call.Within maxArgs)
      (yields : evaluator.Yields call.children values) :
      Ends call evaluator maxArgs (.ok ⟨values⟩) call.children

theorem exists_ends (call : NodeView) (evaluator : Evaluator) (maxArgs : Option Nat) :
    ∃ result asked, Ends call evaluator maxArgs result asked := by
  by_cases hm : ∃ max, call.Exceeds maxArgs max
  · obtain ⟨max, hm⟩ := hm
    exact ⟨_, _, .exceeded hm⟩
  have hw : call.Within maxArgs := fun max h => hm ⟨max, h⟩
  rcases evaluator.yields_or_panicsFirst call.children with ⟨values, hv⟩ | ⟨i, p, hp⟩
  · exact ⟨_, _, .gathered hw hv⟩
  · exact ⟨_, _, .panicked hw hp⟩

theorem Ends.showing {result : Except CallError Arguments} {asked : List NodeView}
    (h : Ends call evaluator maxArgs result asked) (tell : NodeView → List String) :
    Ends call (evaluator.showing tell) maxArgs result asked := by
  cases h with
  | exceeded exceeds => exact .exceeded exceeds
  | panicked within panics => exact .panicked within panics
  | gathered within yields => exact .gathered within yields

theorem ofCall_of_ends {result : Except CallError Arguments} {asked : List NodeView}
    (h : Ends call evaluator maxArgs result asked) :
    (ofCall call evaluator maxArgs).value = result ∧
      (ofCall call evaluator maxArgs).seen = evaluator.seen asked := by
  cases h with
  | exceeded exceeds => exact ofCall_of_exceeds exceeds evaluator
  | panicked within panics => exact ofCall_of_panicsFirst within panics
  | gathered within yields => exact ofCall_of_yields within yields

theorem asks_of_ends {result : Except CallError Arguments} {asked : List NodeView}
    (h : Ends call evaluator maxArgs result asked) : Asks call evaluator maxArgs asked :=
  fun tell => (ofCall_of_ends (h.showing tell)).2

theorem ends_ofCall (call : NodeView) (evaluator : Evaluator) (maxArgs : Option Nat) :
    ∃ asked, Ends call evaluator maxArgs (ofCall call evaluator maxArgs).value asked := by
  obtain ⟨result, asked, h⟩ := exists_ends call evaluator maxArgs
  rw [(ofCall_of_ends h).1]
  exact ⟨asked, h⟩

theorem ofCall_eq_ok_iff {args : Arguments} :
    (ofCall call evaluator maxArgs).value = .ok args ↔
      call.Within maxArgs ∧ evaluator.Yields call.children args.values := by
  constructor
  · intro h
    obtain ⟨asked, hends⟩ := ends_ofCall call evaluator maxArgs
    rw [h] at hends
    cases hends with
    | gathered within yields => exact ⟨within, yields⟩
  · rintro ⟨within, yields⟩
    exact (ofCall_of_yields within yields).1

theorem ofCall_eq_tooManyArguments_iff {name : String} {given max : Nat} :
    (ofCall call evaluator maxArgs).value = .error (.tooManyArguments name given max) ↔
      call.Exceeds maxArgs max ∧ name = call.name ∧ given = call.claimed := by
  constructor
  · intro h
    obtain ⟨asked, hends⟩ := ends_ofCall call evaluator maxArgs
    rw [h] at hends
    cases hends with
    | exceeded exceeds => exact ⟨exceeds, rfl, rfl⟩
  · rintro ⟨exceeds, rfl, rfl⟩
    exact (ofCall_of_exceeds exceeds evaluator).1

theorem ofCall_eq_evaluation_iff {name : String} {index : Nat} {e : HostError} :
    (ofCall call evaluator maxArgs).value = .error (.evaluation name index e) ↔
      call.Within maxArgs ∧ name = call.name ∧
        ∃ p, evaluator.PanicsFirst call.children index p ∧ e = p.error := by
  constructor
  · intro h
    obtain ⟨asked, hends⟩ := ends_ofCall call evaluator maxArgs
    rw [h] at hends
    cases hends with
    | panicked within panics => exact ⟨within, rfl, _, panics, rfl⟩
  · rintro ⟨within, rfl, p, panics, rfl⟩
    exact (ofCall_of_panicsFirst within panics).1

theorem getElem?_types_eq_node_iff {args : Arguments} {i : Nat} :
    args.types[i]? = some .node ↔ ∃ g, args.values[i]? = some (.node g) := by
  rw [types, List.getElem?_map]
  cases args.values[i]? with
  | none => simp
  | some v => simp [Value.callType_eq_node_iff]

/-- How the arguments of a call are gathered. -/
structure Gathers (call : NodeView) (evaluator : Evaluator) (maxArgs : Option Nat) : Prop where
  /-- The children of a call are those at its positions up to the first without one. -/
  children : (∀ i c, call.children[i]? = some c ↔
      call.child? i = some c ∧ ∀ j < i, (call.child? j).isSome = true) ∧
    call.child? call.children.length = none
  exceeded : ∀ name given max,
    (ofCall call evaluator maxArgs).value = .error (.tooManyArguments name given max) ↔
      (maxArgs = some max ∧ max < call.claimed) ∧ name = call.name ∧ given = call.claimed
  exceeded_asks : ∀ max, maxArgs = some max → max < call.claimed → Asks call evaluator maxArgs []
  panicked : ∀ name index e,
    (ofCall call evaluator maxArgs).value = .error (.evaluation name index e) ↔
      call.Within maxArgs ∧ name = call.name ∧
        ∃ p, evaluator.PanicsFirst call.children index p ∧ e = p.error
  panicked_asks : ∀ index p, call.Within maxArgs → evaluator.PanicsFirst call.children index p →
    Asks call evaluator maxArgs (call.children.take (index + 1))
  gathered : ∀ args, (ofCall call evaluator maxArgs).value = .ok args ↔
    call.Within maxArgs ∧ evaluator.Yields call.children args.values
  gathered_asks : ∀ args, (ofCall call evaluator maxArgs).value = .ok args →
    Asks call evaluator maxArgs call.children
  /-- One of the three happens. -/
  ends : (∃ max, call.Exceeds maxArgs max) ∨
    call.Within maxArgs ∧ ((∃ index p, evaluator.PanicsFirst call.children index p) ∨
      ∃ args, (ofCall call evaluator maxArgs).value = .ok args)
  /-- The walk that pushes each value and its type into their columns answers the same. -/
  columns : (Columns.ofCall call evaluator maxArgs).value =
      (ofCall call evaluator maxArgs).value.map Arguments.columns ∧
    (Columns.ofCall call evaluator maxArgs).notes = (ofCall call evaluator maxArgs).notes
  aligned : ∀ c, (Columns.ofCall call evaluator maxArgs).value = .ok c →
    c.Aligned ∧ c.types.length = c.values.length
  pushed : ∀ (c : Columns) (v : Value), c.Aligned →
    (c.push v).Aligned ∧ (c.push v).values = c.values ++ [v]
  collected : ∀ values, (Columns.ofValues values).Aligned ∧
    (Columns.ofValues values).values = values
  types : ∀ args : Arguments, CallType.int ∉ args.types ∧ CallType.object ∉ args.types
  nodes : ∀ (args : Arguments) (i : Nat), args.types[i]? = some .node ↔
    ∃ g, args.values[i]? = some (.node g)
  truthful : (∀ i, (call.child? i).isSome = true ↔ i < call.claimed) →
    ∀ args, (ofCall call evaluator maxArgs).value = .ok args →
      args.size = call.claimed ∧ ∀ max, maxArgs = some max → args.size ≤ max

theorem size_of_ofCall_eq_ok (counts : ∀ i, (call.child? i).isSome = true ↔ i < call.claimed)
    {args : Arguments} (h : (ofCall call evaluator maxArgs).value = .ok args) :
    args.size = call.claimed := by
  have hlength := (ofCall_eq_ok_iff.mp h).2.length_eq
  rw [size, ← hlength]
  exact NodeView.length_beforeGap counts

/-- The arguments of a call are the values of its children, gathered in order, within bounds, and
no further than the first panic. -/
theorem gathers (call : NodeView) (evaluator : Evaluator) (maxArgs : Option Nat) :
    Gathers call evaluator maxArgs where
  children :=
    ⟨fun _ _ => NodeView.getElem?_children_eq_some_iff, call.child?_length_children⟩
  exceeded _ _ _ := ofCall_eq_tooManyArguments_iff
  exceeded_asks _ hmax hlt := asks_of_ends (.exceeded ⟨hmax, hlt⟩)
  panicked _ _ _ := ofCall_eq_evaluation_iff
  panicked_asks _ _ within panics := asks_of_ends (.panicked within panics)
  gathered _ := ofCall_eq_ok_iff
  gathered_asks args h := by
    obtain ⟨within, yields⟩ := ofCall_eq_ok_iff.mp h
    exact asks_of_ends (.gathered within yields)
  ends := by
    obtain ⟨result, asked, h⟩ := exists_ends call evaluator maxArgs
    cases h with
    | exceeded exceeds => exact .inl ⟨_, exceeds⟩
    | panicked within panics => exact .inr ⟨within, .inl ⟨_, _, panics⟩⟩
    | gathered within yields =>
      exact .inr ⟨within, .inr ⟨_, (ofCall_of_yields within yields).1⟩⟩
  columns := Columns.ofCall_eq call evaluator maxArgs
  aligned c h :=
    have haligned := Columns.aligned_of_ofCall_eq_ok h
    ⟨haligned, haligned.length_eq⟩
  pushed c v hc := ⟨hc.push v, rfl⟩
  collected values :=
    ⟨Columns.aligned_empty.pushAll values, Columns.values_pushAll Columns.empty values⟩
  types args := by
    simp only [Arguments.types, List.mem_map, not_exists, not_and]
    exact ⟨fun _ _ => Value.callType_ne_int, fun _ _ => Value.callType_ne_object⟩
  nodes _ _ := getElem?_types_eq_node_iff
  truthful counts args h := by
    have hsize := size_of_ofCall_eq_ok counts h
    refine ⟨hsize, fun max hmax => ?_⟩
    have hle : ¬ max < call.claimed := fun hlt => (ofCall_eq_ok_iff.mp h).1 max ⟨hmax, hlt⟩
    omega

end Arguments

end HostCall
