import HostCall.Boundary.Operations
import Mathlib.Logic.Basic

/-!
# Exposed computations beside traced ones

An exposed computation goes as a traced one until a panic cuts it short, if one does. The panics
that can cut it short are those that no guard is left for: that of a copy without room for it, and
that of dropping a panic that a guard has caught.
-/

namespace HostCall

variable {σ : Type}

/-! ## Panics that no guard is left for -/

namespace Outcome

variable {α : Type}

def panic? : Outcome α → Option Panic
  | panicked p => some p
  | returned _ | failed _ => none

theorem panic?_eq_some_iff {o : Outcome α} {p : Panic} : o.panic? = some p ↔ o = .panicked p := by
  cases o <;> simp [panic?]

end Outcome

namespace Setting

/-- What gets out of a guard: the panic of dropping the one that it has caught, if it caught one. -/
def escape? (s : Setting) (caught : Option Panic) : Option Panic :=
  caught.bind fun p => (s.dropping p).panic?

/-- Nobody sees that panics are dropped. -/
def Silent (s : Setting) : Prop := ∀ p, (s.dropping p).events = []

end Setting

theorem Response.contain_run (r : Response) : r.run.outcome.contain = r.contain := by
  obtain ⟨answer, events⟩ := r
  cases answer <;> rfl

theorem Response.panic?_run_eq_some_iff {r : Response} {p : Panic} :
    r.run.outcome.panic? = some p ↔ r.answer = .error p := by
  obtain ⟨answer, events⟩ := r
  cases answer <;> simp [Response.run, Outcome.panic?]

namespace Exposed

variable {α β : Type}

/-! ## The same way up to a cut -/

/-- An exposed computation ends as a traced one does, unless a panic cuts it short. -/
structure Goes (s : Setting) (cut : Option Panic) (x : Exposed α) (t : Traced α) : Prop where
  ending : x.ending =
    match cut with
    | some q => .error (.unwound q)
    | none => .ok t.value
  notes : cut = none → s.Silent → x.notes = t.notes

variable {s : Setting} {cut : Option Panic} {x : Exposed α} {t : Traced α}

theorem Goes.sure (t : Traced α) : Goes s none (sure t) t := ⟨rfl, fun _ _ => rfl⟩

theorem Goes.pure (a : α) : Goes s none (pure a) (pure a) := ⟨rfl, fun _ _ => rfl⟩

theorem Goes.pure_bind {a : α} {f : α → Exposed β} {u : Traced β} (h : Goes s cut (f a) u) :
    Goes s cut (Pure.pure a >>= f) u := h

/-- What comes before goes to its end, so a cut can only come afterwards. -/
theorem Goes.bind_right {f : α → Exposed β} {g : α → Traced β} (h : Goes s none x t)
    (h' : Goes s cut (f t.value) (g t.value)) : Goes s cut (x >>= f) (t >>= g) := by
  obtain ⟨ending, notes⟩ := x
  obtain rfl : ending = .ok t.value := h.ending
  refine ⟨h'.ending, fun hcut hsilent => ?_⟩
  exact congrArg₂ (· ++ ·) (h.notes rfl hsilent) (h'.notes hcut hsilent)

/-- A cut goes through whatever was to come. -/
theorem Goes.unwound {q : Panic} {f : α → Exposed β} (h : Goes s (some q) x t) (u : Traced β) :
    Goes s (some q) (x >>= f) u := by
  obtain ⟨ending, notes⟩ := x
  obtain rfl : ending = .error (.unwound q) := h.ending
  exact ⟨rfl, fun hcut => nomatch hcut⟩

/-- What comes after goes to its end, so a cut can only have come before. -/
theorem Goes.bind_left {f : α → Exposed β} {g : α → Traced β} (h : Goes s cut x t)
    (h' : Goes s none (f t.value) (g t.value)) : Goes s cut (x >>= f) (t >>= g) := by
  cases cut with
  | none => exact h.bind_right h'
  | some q => exact h.unwound _

theorem Goes.sure_bind {t : Traced α} {f : α → Exposed β} {g : α → Traced β}
    (h : Goes s cut (f t.value) (g t.value)) : Goes s cut (Exposed.sure t >>= f) (t >>= g) :=
  (Goes.sure t).bind_right h

/-! ## Copies -/

theorem copy_bind_of_fits {v : NodeView} (hfits : v.fits = true) {f : Graph → Exposed β}
    {u : Traced β} (h : Goes s cut (f v.copy) u) : Goes s cut (copy v >>= f) u := by
  rw [copy, NodeView.tryCopy_of_fits hfits]
  exact h.pure_bind

theorem copy_bind_of_full {v : NodeView} (hfull : v.fits = false) (f : Graph → Exposed β)
    (u : Traced β) : Goes s (some .noRoom) (copy v >>= f) u := by
  rw [copy, NodeView.tryCopy_of_full hfull]
  exact ⟨rfl, fun hcut => nomatch hcut⟩

/-! ## Guards -/

/-- Behind a guard, host code goes on as it does where panics are contained, unless the panic that
was caught panics itself on being dropped. -/
theorem guarded_goes (s : Setting) (r : HostRun α) :
    Goes s (s.escape? r.outcome.panic?) (guarded s r.exposed)
      (Traced.events r.events >>= fun _ => pure r.outcome.contain) := by
  obtain ⟨outcome, events⟩ := r
  have hnotes : events.map Note.event = events.map Note.event ++ [] := (List.append_nil _).symm
  cases outcome with
  | returned a => exact ⟨rfl, fun _ _ => hnotes⟩
  | failed e => exact ⟨rfl, fun _ _ => hnotes⟩
  | panicked p =>
    refine ⟨?_, fun _ hsilent => ?_⟩
    · change (match (s.dropping p).panic? with | some q => _ | none => _) =
        match (s.dropping p).panic? with | some q => _ | none => _
      cases (s.dropping p).panic? <;> rfl
    · change events.map Note.event ++ (s.dropping p).events.map Note.event = _
      rw [hsilent p]
      rfl

private theorem events_bind_pure_bind (texts : List String) (a : α) (g : Traced β) :
    ((Traced.events texts >>= fun _ => (pure a : Traced α)) >>= fun _ => g) =
      Traced.events texts >>= fun _ => g := by
  change (⟨g.value, (texts.map Note.event ++ []) ++ g.notes⟩ : Traced β) = _
  rw [List.append_nil]
  rfl

theorem guarded_bind_left {r : HostRun α} {f : Except HostError α → Exposed β} {g : Traced β}
    (h : Goes s none (f r.outcome.contain) g) :
    Goes s (s.escape? r.outcome.panic?) (guarded s r.exposed >>= f)
      (Traced.events r.events >>= fun _ => g) := by
  rw [← events_bind_pure_bind r.events r.outcome.contain g]
  exact (guarded_goes s r).bind_left h

theorem guarded_bind_right {r : HostRun α} (hr : r.outcome.panic? = none)
    {f : Except HostError α → Exposed β} {g : Traced β} (h : Goes s cut (f r.outcome.contain) g) :
    Goes s cut (guarded s r.exposed >>= f) (Traced.events r.events >>= fun _ => g) := by
  have hguarded := guarded_goes s r
  rw [hr] at hguarded
  rw [← events_bind_pure_bind r.events r.outcome.contain g]
  exact hguarded.bind_right h

/-! ## What can get out -/

/-- Panics of some kind get out of an exposed computation and nothing else ends it. Where none gets
out, it comes to what a traced computation comes to. -/
structure Follows (s : Setting) (Escapes : Panic → Prop) (x : Exposed α) (t : Traced α) :
    Prop where
  intact : ∀ e, x.ending ≠ .error (.breached e)
  unwound : ∀ q, x.ending = .error (.unwound q) ↔ Escapes q
  ending : (∀ q, ¬ Escapes q) → x.ending = .ok t.value
  notes : (∀ q, ¬ Escapes q) → s.Silent → x.notes = t.notes

variable {Escapes : Panic → Prop}

/-- A panic that cuts a computation short gets out, and each that gets out is such a cut. -/
theorem Goes.follows (h : Goes s cut x t) (hcut : ∀ q, cut = some q → Escapes q)
    (hescapes : ∀ q, Escapes q → Goes s (some q) x t) : Follows s Escapes x t := by
  have hending := h.ending
  have hnone (hno : ∀ q, ¬ Escapes q) : cut = none :=
    Option.eq_none_iff_forall_ne_some.mpr fun q hq => hno q (hcut q hq)
  refine ⟨?_, ?_, ?_, fun hno => h.notes (hnone hno)⟩
  · intro e he
    rw [he] at hending
    cases cut <;> cases hending
  · intro q
    constructor
    · intro hq
      rw [hq] at hending
      cases cut with
      | none => cases hending
      | some q' =>
        cases hending
        exact hcut q rfl
    · exact fun hq => (hescapes q hq).ending
  · intro hno
    rw [hending, hnone hno]

theorem Follows.of_none (h : Goes s none x t) (hno : ∀ q, ¬ Escapes q) : Follows s Escapes x t :=
  h.follows (fun _ hq => nomatch hq) fun q hq => absurd hq (hno q)

/-- Either computation may be cut short, the second one only where the first was not. -/
theorem Follows.bind {Escapes' : Panic → Prop} {f : α → Exposed β} {g : α → Traced β}
    (h : Follows s Escapes x t)
    (h' : (∀ q, ¬ Escapes q) → Follows s Escapes' (f t.value) (g t.value)) :
    Follows s (fun q => Escapes q ∨ (∀ r, ¬ Escapes r) ∧ Escapes' q) (x >>= f) (t >>= g) := by
  by_cases hno : ∀ q, ¬ Escapes q
  · -- the first computation ends, and the second decides
    have hafter := h' hno
    obtain ⟨ending, notes⟩ := x
    obtain rfl : ending = .ok t.value := h.ending hno
    refine ⟨hafter.intact, ?_, ?_, ?_⟩
    · intro q
      simp only [hno, not_false_eq_true, implies_true, false_or, true_and]
      exact hafter.unwound q
    · intro hrest
      exact hafter.ending fun q hq => hrest q (.inr ⟨hno, hq⟩)
    · intro hrest hsilent
      exact congrArg₂ (· ++ ·) (h.notes hno hsilent)
        (hafter.notes (fun q hq => hrest q (.inr ⟨hno, hq⟩)) hsilent)
  · obtain ⟨p, hp⟩ := not_forall_not.mp hno
    obtain ⟨ending, notes⟩ := x
    obtain rfl : ending = .error (.unwound p) := (h.unwound p).mpr hp
    refine ⟨?_, ?_, fun hrest => (hrest p (.inl hp)).elim, fun hrest => (hrest p (.inl hp)).elim⟩
    · intro e he
      cases he
    · intro q
      simp only [hno, false_and, or_false, ← h.unwound q]
      change Except.error (Fault.unwound p) = Except.error (Fault.unwound q) ↔ _
      simp only [Except.error.injEq]

/-- What comes after goes to its end, so all that gets out has got out before. -/
theorem Follows.bind_left {f : α → Exposed β} {g : α → Traced β} (h : Follows s Escapes x t)
    (h' : Goes s none (f t.value) (g t.value)) : Follows s Escapes (x >>= f) (t >>= g) := by
  have hnone : Follows s (fun _ => False) (f t.value) (g t.value) := .of_none h' fun _ => id
  simpa only [and_false, or_false] using h.bind fun _ => hnone

end Exposed

end HostCall
