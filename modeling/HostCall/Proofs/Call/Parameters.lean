import HostCall.Proofs.Binding.Sound
import HostCall.Proofs.Call.Selection
import HostCall.Proofs.Types.Conversion

/-!
# Typed parameters and selection

A method over typed arguments declares its parameter types from the types of its code and converts
the arguments before the code runs. Once selection has chosen it, a conversion fails only at a
refused argument, the first of these is complained about, and the code has not run by then.
-/

namespace HostCall

variable {σ : Type}

theorem ArgumentList.get_of_getElem? {args : ArgumentList} {i : ArgumentList.Position} {v : Value}
    (hv : args[i.toNat]? = some v) (type : HostType) :
    args.get type i = (type.ofValue v).mapError (.argument i.toNat) := by
  rw [get, value, hv]

/-- The code of a method over typed arguments. -/
inductive TypedCode (σ : Type) where
  | zero (f : σ → HostRun Value × σ)
  | one (a : SlotType) (f : σ → a.type.Carrier → HostRun Value × σ)
  | two (a b : SlotType) (f : σ → a.type.Carrier → b.type.Carrier → HostRun Value × σ)

namespace TypedCode

def slots : TypedCode σ → List SlotType
  | zero _ => []
  | one a _ => [a]
  | two a b _ => [a, b]

def method (name : String) : TypedCode σ → Method σ
  | zero f => .typed0 name f
  | one a f => .typed1 name a f
  | two a b f => .typed2 name a b f

theorem params_method (t : TypedCode σ) (name : String) :
    (t.method name).params = t.slots.map SlotType.declared := by
  cases t <;> rfl

/-- The argument at a position is not converted. -/
def FailsAt (t : TypedCode σ) (values : List Value) (i : Nat) (cause : ConversionError) : Prop :=
  ∃ a v, t.slots[i]? = some a ∧ values[i]? = some v ∧ a.type.ofValue v = .error cause

/-- The argument at a position is one that the conversion refuses. -/
def RefusesAt (t : TypedCode σ) (values : List Value) (i : Nat) : Prop :=
  ∃ a v, t.slots[i]? = some a ∧ values[i]? = some v ∧ a.type.Refuses v

/-- What code does on a state and the data of its arguments. -/
inductive Runs (s : σ) : TypedCode σ → List Value → HostRun Value × σ → Prop
  | zero {f : σ → HostRun Value × σ} : Runs s (.zero f) [] (f s)
  | one {a : SlotType} {f : σ → a.type.Carrier → HostRun Value × σ} {v : Value}
      {x : a.type.Carrier} (hx : a.type.ofValue v = .ok x) : Runs s (.one a f) [v] (f s x)
  | two {a b : SlotType} {f : σ → a.type.Carrier → b.type.Carrier → HostRun Value × σ}
      {v w : Value} {x : a.type.Carrier} {y : b.type.Carrier} (hx : a.type.ofValue v = .ok x)
      (hy : b.type.ofValue w = .ok y) : Runs s (.two a b f) [v, w] (f s x y)

section Body

variable {t : TypedCode σ} {values : List Value}

private theorem get_eq_error {args : ArgumentList} {i : ArgumentList.Position} {v : Value}
    (hv : args[i.toNat]? = some v) {type : HostType} {cause : ConversionError}
    (hc : type.ofValue v = .error cause) :
    args.get type i = .error (.argument i.toNat cause) := by
  rw [ArgumentList.get_of_getElem? hv, hc]
  rfl

private theorem get_eq_ok {args : ArgumentList} {i : ArgumentList.Position} {v : Value}
    (hv : args[i.toNat]? = some v) {type : HostType} {x : type.Carrier}
    (hc : type.ofValue v = .ok x) : args.get type i = .ok x := by
  rw [ArgumentList.get_of_getElem? hv, hc]
  rfl

/-- The first argument that is not converted is complained about, and nothing has run by then. -/
theorem body_of_failsAt {i : Nat} {cause : ConversionError} (hf : t.FailsAt values i cause)
    (hfirst : ∀ j < i, ∀ e, ¬ t.FailsAt values j e) (name : String) (s : σ) :
    (t.method name).body s values = Method.refuse s (.argument i cause) := by
  obtain ⟨a, v, ha, hv, hc⟩ := hf
  cases t with
  | zero f => simp [slots] at ha
  | one b f =>
    cases i with
    | zero =>
      obtain rfl : b = a := Option.some.inj ha
      simp only [method, Method.typed1, get_eq_error (i := 0) hv hc]
      rfl
    | succ i => simp [slots] at ha
  | two b d f =>
    cases i with
    | zero =>
      obtain rfl : b = a := Option.some.inj ha
      simp only [method, Method.typed2, get_eq_error (i := 0) hv hc]
      rfl
    | succ i =>
      cases i with
      | zero =>
        obtain rfl : d = a := Option.some.inj ha
        -- the first argument is converted before, and that did not fail
        have hlen : 1 < values.length := (List.getElem?_eq_some_iff.mp hv).1
        obtain ⟨w, hw⟩ : ∃ w, values[0]? = some w :=
          ⟨values[0], List.getElem?_eq_getElem (by omega)⟩
        cases hx : b.type.ofValue w with
        | error e => exact absurd ⟨b, w, rfl, hw, hx⟩ (hfirst 0 (by omega) e)
        | ok x =>
          simp only [method, Method.typed2, get_eq_ok (i := 0) hw hx, get_eq_error (i := 1) hv hc]
          rfl
      | succ i => simp [slots] at ha

/-- Where all arguments are converted, the code runs on the data. -/
theorem runs_body (hl : values.length = t.slots.length) (hok : ∀ i e, ¬ t.FailsAt values i e)
    (name : String) (s : σ) : t.Runs s values ((t.method name).body s values) := by
  cases t with
  | zero f =>
    obtain rfl := List.length_eq_zero_iff.mp hl
    exact .zero
  | one a f =>
    obtain ⟨v, rfl⟩ := List.length_eq_one_iff.mp hl
    cases hx : a.type.ofValue v with
    | error e => exact absurd ⟨a, v, rfl, rfl, hx⟩ (hok 0 e)
    | ok x =>
      have hv : [v][(0 : ArgumentList.Position).toNat]? = some v := rfl
      simp only [method, Method.typed1, get_eq_ok hv hx]
      exact .one hx
  | two a b f =>
    obtain ⟨v, w, rfl⟩ := List.length_eq_two.mp hl
    cases hx : a.type.ofValue v with
    | error e => exact absurd ⟨a, v, rfl, rfl, hx⟩ (hok 0 e)
    | ok x =>
      cases hy : b.type.ofValue w with
      | error e => exact absurd ⟨b, w, rfl, rfl, hy⟩ (hok 1 e)
      | ok y =>
        have hv : [v, w][(0 : ArgumentList.Position).toNat]? = some v := rfl
        have hw : [v, w][(1 : ArgumentList.Position).toNat]? = some w := rfl
        simp only [method, Method.typed2, get_eq_ok hv hx, get_eq_ok hw hy]
        exact .two hx hy

end Body

/-- How the conversion of the arguments of a method agrees with their types. -/
structure Agrees (t : TypedCode σ) (name : String) (values : List Value) : Prop where
  length_eq : values.length = t.slots.length
  /-- A conversion fails exactly at a refused argument, as one of the wrong kind. -/
  fails_iff : ∀ i cause, t.FailsAt values i cause ↔
    ∃ a v, t.slots[i]? = some a ∧ values[i]? = some v ∧ a.type.Refuses v ∧
      cause = .mismatch a.type.base.expectedName v.kindName
  /-- The first refused argument is complained about. The code has not run by then: the instance
  is as it was, and others have seen nothing. -/
  refused : ∀ i a v, t.slots[i]? = some a → values[i]? = some v → a.type.Refuses v →
    (∀ j < i, ¬ t.RefusesAt values j) →
    (∀ s, (t.method name).body s values =
      Method.refuse s (.argument i (.mismatch a.type.base.expectedName v.kindName))) ∧
    ∀ (c : HostClass σ) (r : Instance σ), r.native = c.native →
      (c.call (t.method name) r values).value =
          (.error (.argument i (.mismatch a.type.base.expectedName v.kindName)), r) ∧
        (c.call (t.method name) r values).seen = []
  /-- Where no argument is refused, the code runs on the data of all of them. -/
  converted : (∀ i, ¬ t.RefusesAt values i) → ∀ s,
    t.Runs s values ((t.method name).body s values)
  /-- Scalars are always converted. -/
  primitive : ∀ i a, t.slots[i]? = some a → a.declared.isPrimitive = true →
    ∀ cause, ¬ t.FailsAt values i cause
  inRange : ∀ i n target, ¬ t.FailsAt values i (.outOfRange n target)
  /-- Host objects come only where the type of all arguments is declared. -/
  object : ∀ (i : Nat) (a : SlotType) (o : ObjectRef), t.slots[i]? = some a →
    values[i]? = some (.object o) → a.declared = .object

section Selected

variable {h : Hierarchy} {t : TypedCode σ} {name : String} {values : List Value}

private theorem forall₂_accepts {called : String}
    (ht : (t.method name).Takes h called (values.map Value.callType)) :
    List.Forall₂ (fun a v => h.accepts (SlotType.declared a) (Value.callType v) = true) t.slots
      values := by
  have hall := ht.2
  rw [params_method, Hierarchy.AcceptsAll, List.forall₂_map_left_iff,
    List.forall₂_map_right_iff] at hall
  exact hall

private theorem accepts_getElem?
    (hall : List.Forall₂ (fun a v => h.accepts (SlotType.declared a) (Value.callType v) = true)
      t.slots values) {i : Nat} {a : SlotType} {v : Value} (ha : t.slots[i]? = some a)
    (hv : values[i]? = some v) : h.accepts a.declared v.callType = true := by
  obtain ⟨hi, rfl⟩ := List.getElem?_eq_some_iff.mp ha
  obtain ⟨hj, rfl⟩ := List.getElem?_eq_some_iff.mp hv
  exact (List.forall₂_iff_get.mp hall).2 i hi hj

/-- Where the types of the arguments are accepted, their conversion agrees with them. -/
theorem agrees_of_takes {called : String}
    (ht : (t.method name).Takes h called (values.map Value.callType)) : t.Agrees name values := by
  have hall := forall₂_accepts ht
  have hlen : values.length = t.slots.length := hall.length_eq.symm
  have hfails : ∀ i cause, t.FailsAt values i cause ↔
      ∃ a v, t.slots[i]? = some a ∧ values[i]? = some v ∧ a.type.Refuses v ∧
        cause = .mismatch a.type.base.expectedName v.kindName := by
    intro i cause
    constructor
    · intro hx
      obtain ⟨a, v, ha, hv, hc⟩ := hx
      have hr := (SlotType.ofValue_eq_error_iff (accepts_getElem? hall ha hv)).mp hc
      exact ⟨a, v, ha, hv, hr.1, hr.2⟩
    · intro hx
      obtain ⟨a, v, ha, hv, hr, hc⟩ := hx
      exact ⟨a, v, ha, hv,
        (SlotType.ofValue_eq_error_iff (accepts_getElem? hall ha hv)).mpr ⟨hr, hc⟩⟩
  have hrefuses : ∀ j e, t.FailsAt values j e → t.RefusesAt values j := by
    intro j e hf
    obtain ⟨a, v, ha, hv, hr, -⟩ := (hfails j e).mp hf
    exact ⟨a, v, ha, hv, hr⟩
  refine ⟨hlen, hfails, ?_, ?_, ?_, ?_, ?_⟩
  · intro i a v ha hv hr hfirst
    have hbody := body_of_failsAt ((hfails i _).mpr ⟨a, v, ha, hv, hr, rfl⟩)
      (fun j hj e hf => hfirst j hj (hrefuses j e hf)) name
    refine ⟨hbody, ?_⟩
    intro c r hn
    have harity : values.length = (t.method name).arity := by
      rw [hlen, Method.arity, params_method, List.length_map]
    obtain ⟨hvalue, hseen⟩ := c.call_of_native hn harity
    rw [hvalue, hseen, hbody]
    exact ⟨rfl, rfl⟩
  · intro hno s
    exact runs_body hlen (fun i e hf => hno i (hrefuses i e hf)) name s
  · intro i a ha hp cause hf
    obtain ⟨b, v, hb, -, hr, -⟩ := (hfails i cause).mp hf
    obtain rfl := Option.some.inj (ha.symm.trans hb)
    rw [a.declared_eq] at hp
    exact HostType.not_refuses_of_isPrimitive hp v hr
  · intro i n target hf
    obtain ⟨a, v, -, -, -, hc⟩ := (hfails i _).mp hf
    cases hc
  · intro i a o ha hv
    exact SlotType.declared_of_accepts_object (accepts_getElem? hall ha hv)

end Selected

end TypedCode

namespace Method

variable {h : Hierarchy} {table : List (Method σ)} {called : String}

theorem not_takes_of_int {m : Method σ} (hm : CallType.int ∈ m.params) (values : List Value) :
    ¬ m.Takes h called (values.map Value.callType) := by
  intro hx
  obtain ⟨-, hall⟩ := hx
  rw [Hierarchy.AcceptsAll, List.forall₂_map_right_iff, List.forall₂_iff_get] at hall
  obtain ⟨i, hi, he⟩ := List.getElem_of_mem hm
  have ha := hall.2 i hi (hall.1 ▸ hi)
  rw [List.get_eq_getElem, he, h.not_accepts_int] at ha
  cases ha

/-- In every hierarchy, the conversion of the arguments of a typed method that selection answers
agrees with their types; a method with a parameter of 32-bit integers is never answered. -/
theorem select_agrees (h : Hierarchy) (table : List (Method σ)) (called : String)
    (values : List Value) :
    (∀ (t : TypedCode σ) name fit,
      select h table called (values.map Value.callType) = some (t.method name, fit) →
        t.Agrees name values) ∧
      ∀ m fit, CallType.int ∈ m.params →
        select h table called (values.map Value.callType) ≠ some (m, fit) := by
  constructor
  · intro t name fit hs
    exact TypedCode.agrees_of_takes (select_eq_some_iff.mp hs).takes.2
  · intro m fit hm hs
    exact not_takes_of_int hm values (select_eq_some_iff.mp hs).takes.2

end Method

namespace Shelf

/-- Code that counts the objects put on a shelf. -/
def put : TypedCode Nat :=
  .two ⟨.plain .text, .string, rfl⟩ ⟨.optional .object, .object, rfl⟩ fun n _ _ =>
    ({ outcome := .returned .null, events := ["put"] }, n + 1)

end Shelf

/-- Selection accepts a null for the text and a number for the object; the null is complained
about, since it comes first. -/
theorem shelf_select_agrees :
    Method.select .flat [Shelf.put.method "put"] "put" ([.null, .long 1].map Value.callType) =
        some (Shelf.put.method "put", .widened) ∧
      ∀ n, (Shelf.put.method "put").body n [.null, .long 1] =
        Method.refuse n (.argument 0 (.mismatch "string" "null")) := by
  have hs : Method.select .flat [Shelf.put.method "put"] "put"
      ([.null, .long 1].map Value.callType) = some (Shelf.put.method "put", .widened) := rfl
  have h := (Method.select_agrees .flat [Shelf.put.method "put"] "put" [.null, .long 1]).1
    Shelf.put "put" .widened hs
  have hnone : ∀ j < 0, ¬ Shelf.put.RefusesAt [.null, .long 1] j := fun _ hj =>
    absurd hj (Nat.not_lt_zero _)
  exact ⟨hs, (h.refused 0 _ _ rfl rfl rfl hnone).1⟩

end HostCall
