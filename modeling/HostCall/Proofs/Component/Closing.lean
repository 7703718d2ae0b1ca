import HostCall.Proofs.Component.Life

/-!
# Closing once

A life comes down to the calls that are answered in it: the requests, and at most one call that
tears the instance down. That one is made by the first closing, or by the drop if nothing was
closed before. The mark that a component was closed only keeps it from being closed again: requests
are answered alike with it and without it.
-/

namespace HostCall

variable {σ : Type}

namespace Component

/-! ## The mark -/

/-- The component with or without the mark that it was closed. -/
def marked (c : Component σ) (closed : Bool) : Component σ := { c with closed }

theorem answer_marked (c : Component σ) (x : Bool) (call : NodeView) :
    ((c.marked x).answer call).value =
        ((c.answer call).value.1, (c.answer call).value.2.marked x) ∧
      ((c.marked x).answer call).notes = (c.answer call).notes := by
  have hstanding : (c.marked x).standing = c.standing := rfl
  rw [answer, answer, hstanding]
  cases c.standing with
  | unbound cause => exact ⟨rfl, rfl⟩
  | bound b => exact ⟨rfl, rfl⟩

theorem invoke_marked (c : Component σ) (x : Bool) (call : NodeView) :
    ((c.marked x).invoke call).value =
        ((c.invoke call).value.1, (c.invoke call).value.2.marked x) ∧
      ((c.marked x).invoke call).notes = (c.invoke call).notes := by
  obtain ⟨hvalue, hnotes⟩ := c.answer_marked x call
  rw [invoke, invoke]
  simp only [Traced.value_bind, Traced.notes_bind, hvalue, hnotes]
  cases (c.answer call).value.1 with
  | ok v => exact ⟨rfl, rfl⟩
  | error e => exact ⟨rfl, rfl⟩

theorem exec_marked (c : Component σ) (x : Bool) (call : NodeView) :
    ((c.marked x).exec call).value =
        ((c.exec call).value.1, (c.exec call).value.2.marked x) ∧
      ((c.marked x).exec call).notes = (c.exec call).notes := by
  obtain ⟨hvalue, hnotes⟩ := c.invoke_marked x call
  rw [exec, exec]
  simp only [Traced.value_bind, Traced.notes_bind, hvalue, hnotes]
  cases (c.invoke call).value.1 with
  | ok v => exact ⟨rfl, rfl⟩
  | error e => exact ⟨rfl, rfl⟩

/-! ## The calls of a life -/

def serve (c : Component σ) : List Dispatched → Traced (Component σ)
  | [] => return c
  | d :: ds => do
    let (_, c) ← c.answer d.call
    c.serve ds

def dropDispatches (c : Component σ) : List Dispatched :=
  if c.options.closeOnDrop then c.dispatches .close else []

/-- The calls that operations make, and the drop after them. -/
def history (c : Component σ) : List Operation → List Dispatched
  | [] => c.dropDispatches
  | op :: ops => c.dispatches op ++ (c.perform op).value.2.history ops

theorem serve_append (c : Component σ) (first rest : List Dispatched) :
    (c.serve (first ++ rest)).value = ((c.serve first).value.serve rest).value ∧
      (c.serve (first ++ rest)).seen =
        (c.serve first).seen ++ ((c.serve first).value.serve rest).seen := by
  induction first generalizing c with
  | nil => exact ⟨rfl, rfl⟩
  | cons d first ih =>
    obtain ⟨hvalue, hseen⟩ := ih (c.answer d.call).value.2
    refine ⟨hvalue, ?_⟩
    rw [List.cons_append, serve, serve, Traced.seen_bind, Traced.seen_bind, hseen,
      List.append_assoc]
    rfl

theorem serve_marked (c : Component σ) (x : Bool) (ds : List Dispatched) :
    ((c.marked x).serve ds).value = (c.serve ds).value.marked x ∧
      ((c.marked x).serve ds).seen = (c.serve ds).seen := by
  induction ds generalizing c with
  | nil => exact ⟨rfl, rfl⟩
  | cons d ds ih =>
    obtain ⟨hvalue, hnotes⟩ := c.answer_marked x d.call
    obtain ⟨ihvalue, ihseen⟩ := ih (c.answer d.call).value.2
    have hseen : ((c.marked x).answer d.call).seen = (c.answer d.call).seen := by
      rw [Traced.seen, Traced.seen, hnotes]
    simp only [serve, Traced.value_bind, Traced.seen_bind, hvalue, hseen]
    exact ⟨ihvalue, congrArg _ ihseen⟩

/-- What becomes of a component and what is seen meanwhile is what comes of answering some calls,
apart from the mark. -/
structure Serves (c d : Component σ) (seen : List String) (ds : List Dispatched) : Prop where
  component_eq : d = (c.serve ds).value.marked d.closed
  seen_eq : seen = (c.serve ds).seen

theorem Serves.append {c d e : Component σ} {first rest : List String} {ds es : List Dispatched}
    (h : c.Serves d first ds) (h' : d.Serves e rest es) :
    c.Serves e (first ++ rest) (ds ++ es) := by
  obtain ⟨hvalue, hseen⟩ := c.serve_append ds es
  -- the rest is served from a component whose mark may differ
  obtain ⟨hmarked, hnone⟩ := (c.serve ds).value.serve_marked d.closed es
  rw [← h.component_eq] at hmarked hnone
  refine ⟨?_, ?_⟩
  · rw [hvalue, h'.component_eq, hmarked]
    rfl
  · rw [hseen, h.seen_eq, h'.seen_eq, hnone]

theorem serves_answer (c : Component σ) (d : Dispatched) :
    c.Serves (c.answer d.call).value.2 (c.answer d.call).seen [d] := by
  refine ⟨rfl, ?_⟩
  rw [serve, Traced.seen_bind]
  exact (List.append_nil _).symm

theorem serves_nil (c : Component σ) (x : Bool) : c.Serves (c.marked x) [] [] := ⟨rfl, rfl⟩

/-- A request is answered once, by an instance if there is one. -/
theorem serves_request (c : Component σ) (call : NodeView) :
    c.Serves (c.answer call).value.2 (c.answer call).seen
      (if c.isBound then [.request call] else []) := by
  cases hs : c.standing with
  | unbound cause =>
    rw [not_isBound_of_unbound hs, answer, hs]
    exact c.serves_nil c.closed
  | bound b =>
    rw [isBound_of_bound hs]
    exact c.serves_answer (.request call)

theorem serves_close (c : Component σ) :
    c.Serves c.close.value c.close.seen (c.dispatches .close) := by
  rw [dispatches]
  cases ho : c.closed with
  | true =>
    rw [close_of_closed ho, Bool.not_true, Bool.and_false]
    exact c.serves_nil c.closed
  | false =>
    cases hs : c.standing with
    | unbound cause =>
      rw [not_isBound_of_unbound hs, (close_of_unbound hs ho).1, (close_of_unbound hs ho).2]
      exact c.serves_nil true
    | bound b =>
      rw [isBound_of_bound hs, (close_of_bound hs ho).1, (close_of_bound hs ho).2]
      exact (c.serves_nil true).append (c.shut.serves_answer (.teardown c.closeCall))

theorem serves_perform (c : Component σ) (op : Operation) :
    c.Serves (c.perform op).value.2 (c.perform op).seen (c.dispatches op) := by
  cases op with
  | invoke call =>
    have hseen : (c.perform (.invoke call)).seen = (c.answer call).seen := by
      rw [Traced.seen, c.notes_perform, ← (c.invoke_eq_answer call).2, Traced.seen]
    rw [component_perform_invoke, (c.invoke_eq_answer call).1, hseen]
    exact c.serves_request call
  | exec call =>
    have hseen : (c.perform (.exec call)).seen = (c.answer call).seen := by
      rw [Traced.seen, c.notes_perform, ← (c.invoke_eq_answer call).2, ← (c.exec_eq_invoke call).2,
        Traced.seen]
    rw [component_perform_exec, (c.exec_eq_invoke call).1, (c.invoke_eq_answer call).1, hseen]
    exact c.serves_request call
  | close =>
    have hseen : (c.perform .close).seen = c.close.seen := by
      rw [Traced.seen, c.notes_perform, Traced.seen]
    rw [component_perform_close, hseen]
    exact c.serves_close

theorem serves_drop (c : Component σ) : c.Serves c.drop.value c.drop.seen c.dropDispatches := by
  rw [drop, dropDispatches]
  by_cases hd : c.options.closeOnDrop = true
  · rw [if_pos hd, if_pos hd]
    exact c.serves_close
  · rw [if_neg hd, if_neg hd]
    exact c.serves_nil c.closed

/-- A life after the building comes down to the calls of its history. -/
theorem serves_live (c : Component σ) (ops : List Operation) :
    c.Serves (c.live ops).value.2 (c.live ops).seen (c.history ops) := by
  induction ops generalizing c with
  | nil =>
    have hseen : (c.live []).seen = c.drop.seen := by
      rw [Traced.seen, c.notes_live_nil, Traced.seen]
    rw [hseen]
    exact c.serves_drop
  | cons op ops ih =>
    have hseen : (c.live (op :: ops)).seen =
        (c.perform op).seen ++ ((c.perform op).value.2.live ops).seen := by
      rw [Traced.seen, c.notes_live_cons, List.filterMap_append]
      rfl
    rw [hseen]
    exact (c.serves_perform op).append (ih (c.perform op).value.2)

/-! ## The shape of histories -/

/-- The requests among operations, where there is an instance. -/
def requests (c : Component σ) (ops : List Operation) : List Dispatched :=
  if c.isBound then (ops.filterMap Operation.call?).map .request else []

section

variable {c : Component σ}

theorem Kin.requests_eq {d : Component σ} (h : c.Kin d) (ops : List Operation) :
    d.requests ops = c.requests ops := by
  rw [requests, requests, h.isBound_eq]

theorem dispatches_append_requests {op : Operation} (ho : op ≠ .close) (ops : List Operation) :
    c.dispatches op ++ c.requests ops = c.requests (op :: ops) := by
  rw [requests, requests]
  cases op with
  | close => exact absurd rfl ho
  | _ =>
    rw [dispatches]
    cases c.isBound <;> rfl

theorem dispatches_close_of_closed (ho : c.closed = true) : c.dispatches .close = [] := by
  rw [dispatches, ho, Bool.not_true, Bool.and_false]
  rfl

/-- A closed component has requests answered and nothing else. -/
theorem history_of_closed (ho : c.closed = true) (ops : List Operation) :
    c.history ops = c.requests ops := by
  induction ops generalizing c with
  | nil =>
    rw [history, dropDispatches, dispatches_close_of_closed ho, requests, ite_self]
    exact (ite_self _).symm
  | cons op ops ih =>
    have hclosed : (c.perform op).value.2.closed = true := (c.closed_perform op).mpr (.inl ho)
    rw [history, ih hclosed, (c.kin_perform op).requests_eq]
    by_cases hop : op = .close
    · rw [hop, dispatches_close_of_closed ho]
      rfl
    · exact dispatches_append_requests hop ops

/-- As long as nothing is closed, requests are answered. -/
theorem history_append {before : List Operation} (hn : Operation.close ∉ before)
    (rest : List Operation) :
    c.history (before ++ rest) = c.requests before ++ (c.run before).value.2.history rest := by
  induction before generalizing c with
  | nil =>
    rw [requests]
    cases c.isBound <;> rfl
  | cons op before ih =>
    rw [List.mem_cons, not_or] at hn
    rw [List.cons_append, history, ih hn.2, (c.kin_perform op).requests_eq, ← List.append_assoc,
      dispatches_append_requests (Ne.symm hn.1)]
    rfl

theorem run_open (ho : c.closed = false) {before : List Operation}
    (hn : Operation.close ∉ before) : (c.run before).value.2.closed = false := by
  have hiff := c.closed_run before
  rw [ho] at hiff
  simpa [hn] using hiff

theorem Kin.dispatches_close_eq {d : Component σ} (h : c.Kin d) (hclosed : d.closed = c.closed) :
    d.dispatches .close = c.dispatches .close := by
  rw [dispatches, dispatches, h.isBound_eq, h.closeCall_eq, hclosed]

theorem Kin.dropDispatches_eq {d : Component σ} (h : c.Kin d) (hclosed : d.closed = c.closed) :
    d.dropDispatches = c.dropDispatches := by
  rw [dropDispatches, dropDispatches, h.options_eq, h.dispatches_close_eq hclosed]

/-- The first closing makes the call that tears down, and nothing makes it again. -/
theorem history_of_close (ho : c.closed = false) {before : List Operation}
    (hn : Operation.close ∉ before) (after : List Operation) :
    c.history (before ++ .close :: after) =
      c.requests before ++ (c.dispatches .close ++ c.requests after) := by
  have hkin := c.kin_run before
  have hopen := run_open ho hn
  rw [history_append hn, history, hkin.dispatches_close_eq (hopen.trans ho.symm),
    component_perform_close, history_of_closed (closed_close _),
    (hkin.trans (kin_close _)).requests_eq]

/-- Where nothing is closed, the drop may make that call. -/
theorem history_of_not_mem (ho : c.closed = false) {ops : List Operation}
    (hn : Operation.close ∉ ops) : c.history ops = c.requests ops ++ c.dropDispatches := by
  have happend := c.history_append hn []
  rw [List.append_nil] at happend
  rw [happend, history, (c.kin_run ops).dropDispatches_eq ((run_open ho hn).trans ho.symm)]

theorem countP_requests (c : Component σ) (ops : List Operation) :
    (c.requests ops).countP Dispatched.isTeardown = 0 := by
  rw [List.countP_eq_zero]
  intro d hd
  rw [requests, List.mem_ite_nil_right] at hd
  obtain ⟨call, -, rfl⟩ := List.mem_map.mp hd.2
  exact Bool.false_ne_true

theorem countP_dispatches_close (c : Component σ) :
    (c.dispatches .close).countP Dispatched.isTeardown ≤ 1 := by
  have hlength : (c.dispatches .close).length ≤ 1 := by
    rw [dispatches]
    split <;> simp
  exact Nat.le_trans List.countP_le_length hlength

theorem countP_dropDispatches (c : Component σ) :
    c.dropDispatches.countP Dispatched.isTeardown ≤ 1 := by
  rw [dropDispatches]
  split
  · exact c.countP_dispatches_close
  · exact Nat.zero_le 1

theorem countP_history (ho : c.closed = false) (ops : List Operation) :
    (c.history ops).countP Dispatched.isTeardown ≤ 1 := by
  -- the call that tears down, if there is one, is that of the first closing or else of the drop
  by_cases hmem : Operation.close ∈ ops
  · obtain ⟨before, after, rfl, hn⟩ := List.eq_append_cons_of_mem hmem
    rw [history_of_close ho hn, List.countP_append, List.countP_append, countP_requests,
      countP_requests, Nat.zero_add, Nat.add_zero]
    exact c.countP_dispatches_close
  · rw [history_of_not_mem ho hmem, List.countP_append, countP_requests, Nat.zero_add]
    exact c.countP_dropDispatches

theorem history_of_not_isBound (hu : c.isBound = false) (ops : List Operation) :
    c.history ops = [] := by
  induction ops generalizing c with
  | nil =>
    rw [history, dropDispatches, dispatches, hu]
    exact ite_self _
  | cons op ops ih =>
    rw [history, ih ((c.kin_perform op).isBound_eq.trans hu), List.append_nil]
    cases op <;> simp [dispatches, hu]

theorem closed_live_iff (c : Component σ) (ops : List Operation) :
    (c.live ops).value.2.closed = true ↔
      (c.run ops).value.2.closed = true ∨ c.options.closeOnDrop = true := by
  have hlive : (c.live ops).value.2 = (c.run ops).value.2.drop.value := rfl
  rw [hlive, drop, (c.kin_run ops).options_eq]
  by_cases hd : c.options.closeOnDrop = true
  · rw [if_pos hd]
    simp only [closed_close, hd, or_true]
  · rw [if_neg hd]
    simp only [Traced.value_pure, hd, or_false, Bool.false_eq_true]

end

/-- How a component that was just built is closed, whatever is done with it until it is dropped. -/
structure ClosesOnce (c : Component σ) : Prop where
  /-- The calls of the history are all that is answered. -/
  serves : ∀ ops, c.Serves (c.live ops).value.2 (c.live ops).seen (c.history ops)
  first : ∀ before after, Operation.close ∉ before → c.isBound = true →
    c.history (before ++ .close :: after) =
      c.requests before ++ .teardown c.closeCall :: c.requests after
  dropped : ∀ ops, Operation.close ∉ ops → c.isBound = true → c.options.closeOnDrop = true →
    c.history ops = c.requests ops ++ [.teardown c.closeCall]
  kept : ∀ ops, Operation.close ∉ ops → c.options.closeOnDrop = false →
    c.history ops = c.requests ops
  unbound : ∀ ops, c.isBound = false → c.history ops = []
  once : ∀ ops, (c.history ops).countP Dispatched.isTeardown ≤ 1
  closed_iff : ∀ ops, (c.run ops).value.2.closed = true ↔ Operation.close ∈ ops
  dropped_iff : ∀ ops, (c.live ops).value.2.closed = true ↔
    Operation.close ∈ ops ∨ c.options.closeOnDrop = true
  /-- What was closed is left alone: nothing runs, nothing changes and nothing is told. -/
  inert : ∀ ops d, Operation.close ∈ ops → d = (c.run ops).value.2 →
    d.close = pure d ∧ d.drop = pure d
  /-- The mark makes no difference to an answer nor to what it leaves behind. -/
  invoke : ∀ ops d x call, d = (c.run ops).value.2 →
    ((d.marked x).invoke call).value =
        ((d.invoke call).value.1, (d.invoke call).value.2.marked x) ∧
      ((d.marked x).invoke call).notes = (d.invoke call).notes
  exec : ∀ ops d x call, d = (c.run ops).value.2 →
    ((d.marked x).exec call).value = ((d.exec call).value.1, (d.exec call).value.2.marked x) ∧
      ((d.marked x).exec call).notes = (d.exec call).notes

/-- In every life of a component, the instance is torn down once at most, and closing does nothing
after that. -/
theorem closes_once (p : Blueprint σ) : p.build.value.ClosesOnce := by
  have ho := closed_build p
  generalize p.build.value = c at ho
  have hclosed (ops : List Operation) :
      (c.run ops).value.2.closed = true ↔ Operation.close ∈ ops := by
    rw [closed_run, ho]
    simp
  refine ⟨c.serves_live, ?_, ?_, ?_, ?_, ?_, hclosed, ?_, ?_, ?_, ?_⟩
  · intro before after hn hb
    rw [history_of_close ho hn, dispatches, hb, ho]
    rfl
  · intro ops hn hb hd
    rw [history_of_not_mem ho hn, dropDispatches, if_pos hd, dispatches, hb, ho]
    rfl
  · intro ops hn hd
    rw [history_of_not_mem ho hn, dropDispatches, hd]
    exact List.append_nil _
  · intro ops hu
    exact history_of_not_isBound hu ops
  · intro ops
    exact countP_history ho ops
  · intro ops
    rw [closed_live_iff, hclosed]
  · intro ops d hmem hd
    have hshut : d.closed = true := by
      rw [hd]
      exact (hclosed ops).mpr hmem
    exact ⟨close_of_closed hshut, drop_of_closed hshut⟩
  · intro ops d x call _
    exact d.invoke_marked x call
  · intro ops d x call _
    exact d.exec_marked x call

end Component

/-- A latch that is closed twice and then dropped is released once. -/
theorem latch_closes_once :
    let c := (Latch.blueprint false).build.value
    c.history [.close, .close] = [.teardown c.closeCall] ∧
      (c.live [.close, .close]).seen = ["released"] := by
  intro c
  have h := Component.closes_once (Latch.blueprint false)
  have hbound : c.isBound = true := Component.isBound_of_bound (Latch.standing_build false)
  have hhistory : c.history [.close, .close] = [.teardown c.closeCall] := by
    have hfirst := h.first [] [.close] List.not_mem_nil hbound
    rw [Component.requests, Component.requests, if_pos hbound] at hfirst
    exact hfirst
  refine ⟨hhistory, ?_⟩
  have hresolves := Component.resolves_closeCall (c := c) (Latch.declares_release false)
    fun f hf => List.not_mem_nil hf.2.1
  have hanswer := (Component.answer_of_decides (Component.sound_build _)
    (Latch.standing_build false) (.method hresolves)).2
  rw [(h.serves [.close, .close]).seen_eq, hhistory, ← (c.serves_answer _).seen_eq]
  exact hanswer

end HostCall
