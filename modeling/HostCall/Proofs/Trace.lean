import HostCall.Trace

/-!
# Events among notes

The notes of a computation mix log records, reports and events. The events alone, in the order in
which they happened, are all that others see of the host code and the evaluators that ran. Two
computations agree when their values are related and they leave the same notes.
-/

namespace HostCall

namespace Note

/-- The event that a note is, if it is one. -/
def event? : Note → Option String
  | event text => some text
  | _ => none

end Note

namespace Traced

variable {α β : Type}

/-- The events of a computation, in order. -/
def seen (t : Traced α) : List String := t.notes.filterMap Note.event?

@[simp] theorem seen_pure (a : α) : (pure a : Traced α).seen = [] := rfl

@[simp] theorem seen_bind (t : Traced α) (f : α → Traced β) :
    (t >>= f).seen = t.seen ++ (f t.value).seen := by
  rw [seen, notes_bind, List.filterMap_append]
  rfl

@[simp] theorem seen_log (level : Level) (text : String) : (log level text).seen = [] := rfl

@[simp] theorem seen_events (texts : List String) : (events texts).seen = texts := by
  induction texts with
  | nil => rfl
  | cons text texts ih => exact congrArg (text :: ·) ih

end Traced

@[simp] theorem Sink.seen_report (sink : Sink) (d : Diagnostic) : (sink.report d).seen = [] := by
  cases sink <;> rfl

/-! ## Computations that agree -/

namespace Traced

variable {α β γ δ : Type}

/-- The values of two computations are related. The notes are the same where `shown` holds, which
says that the evaluators of both tell others the same. -/
structure Agrees (shown : Prop) (R : α → β → Prop) (x : Traced α) (y : Traced β) : Prop where
  value : R x.value y.value
  notes : shown → x.notes = y.notes

variable {shown : Prop} {R : α → β → Prop} {S : γ → δ → Prop}

theorem Agrees.refl (x : Traced α) : Agrees shown Eq x x := ⟨rfl, fun _ => rfl⟩

theorem Agrees.pure {a : α} {b : β} (h : R a b) : Agrees shown R (pure a) (pure b) :=
  ⟨h, fun _ => rfl⟩

theorem Agrees.bind {x : Traced α} {y : Traced β} {f : α → Traced γ} {g : β → Traced δ}
    (h : Agrees shown R x y) (h' : ∀ a b, R a b → Agrees shown S (f a) (g b)) :
    Agrees shown S (x >>= f) (y >>= g) where
  value := (h' _ _ h.value).value
  notes hs := by rw [notes_bind, notes_bind, h.notes hs, (h' _ _ h.value).notes hs]

theorem Agrees.bind_eq {x y : Traced α} {f : α → Traced γ} {g : α → Traced δ}
    (h : Agrees shown Eq x y) (h' : ∀ a, Agrees shown S (f a) (g a)) :
    Agrees shown S (x >>= f) (y >>= g) :=
  h.bind fun a _ he => he ▸ h' a

theorem Agrees.eq {x y : Traced α} (h : Agrees True Eq x y) : x = y := by
  obtain ⟨value, notes⟩ := x
  obtain ⟨hvalue, hnotes⟩ := h
  rw [show value = y.value from hvalue, show notes = y.notes from hnotes trivial]

end Traced

end HostCall
