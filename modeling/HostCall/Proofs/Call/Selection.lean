import HostCall.Call.Selection
import Mathlib.Data.List.Forall2

/-!
# What method selection answers

A method takes arguments when it has the name of the call and its parameters accept the types of
the arguments, position by position. Selection answers the first method of the table that has the
very types of the arguments, or else the first that takes them; it answers nothing only when no
method takes them.
-/

namespace HostCall

variable {σ : Type}

/-- An element of a list is the first one with a property. -/
def IsFirst {α : Type} (p : α → Prop) (xs : List α) (a : α) : Prop :=
  p a ∧ ∃ before after, xs = before ++ a :: after ∧ ∀ b ∈ before, ¬ p b

private theorem find?_eq_some_iff_isFirst {α : Type} {f : α → Bool} {p : α → Prop}
    (hp : ∀ a, f a = true ↔ p a) {xs : List α} {a : α} :
    xs.find? f = some a ↔ IsFirst p xs a := by
  rw [List.find?_eq_some_iff_append, IsFirst]
  simp only [hp, Bool.not_eq_eq_eq_not, Bool.not_true, ← Bool.not_eq_true]

private theorem find?_eq_none_iff_forall {α : Type} {f : α → Bool} {p : α → Prop}
    (hp : ∀ a, f a = true ↔ p a) {xs : List α} :
    xs.find? f = none ↔ ∀ a ∈ xs, ¬ p a := by
  simp only [List.find?_eq_none, hp]

namespace Hierarchy

/-- Every type accepts itself. -/
@[simp] theorem accepts_refl (h : Hierarchy) (t : CallType) : h.accepts t t = true := by
  simp [accepts]

/-- Types accept types position by position, and there are as many of them. -/
def AcceptsAll (h : Hierarchy) (declared actual : List CallType) : Prop :=
  List.Forall₂ (fun d a => h.accepts d a = true) declared actual

theorem acceptsAll_refl (h : Hierarchy) (types : List CallType) : h.AcceptsAll types types := by
  induction types with
  | nil => exact .nil
  | cons t ts ih => exact .cons (h.accepts_refl t) ih

theorem acceptsAll_iff_zip (h : Hierarchy) {declared actual : List CallType} :
    h.AcceptsAll declared actual ↔
      declared.length = actual.length ∧
        (declared.zip actual).all (fun (d, a) => h.accepts d a) = true := by
  rw [AcceptsAll, List.forall₂_iff_zip, List.all_eq_true]
  constructor
  · intro hx
    obtain ⟨hl, hz⟩ := hx
    exact ⟨hl, fun p hp => hz hp⟩
  · intro hx
    obtain ⟨hl, hz⟩ := hx
    exact ⟨hl, fun hp => hz _ hp⟩

end Hierarchy

namespace Method

/-- A method has a name and exactly these parameter types. -/
def Has (m : Method σ) (name : String) (types : List CallType) : Prop :=
  m.name = name ∧ m.params = types

/-- A method has a name, and its parameters accept these types position by position. -/
def Takes (h : Hierarchy) (m : Method σ) (name : String) (types : List CallType) : Prop :=
  m.name = name ∧ h.AcceptsAll m.params types

theorem matchesExactly_iff {m : Method σ} {name : String} {types : List CallType} :
    m.matchesExactly name types = true ↔ m.Has name types := by
  simp only [matchesExactly, Has, Bool.and_eq_true, beq_iff_eq]

theorem admits_iff {h : Hierarchy} {m : Method σ} {name : String} {types : List CallType} :
    m.admits h name types = true ↔ m.Takes h name types := by
  simp only [admits, arity, Takes, h.acceptsAll_iff_zip, Bool.and_eq_true, beq_iff_eq, and_assoc]

/-- A method with the very types of the arguments takes them. -/
theorem Has.takes {m : Method σ} {name : String} {types : List CallType} (hm : m.Has name types)
    (h : Hierarchy) : m.Takes h name types := by
  obtain ⟨hn, rfl⟩ := hm
  exact ⟨hn, h.acceptsAll_refl m.params⟩

/-- A method that takes arguments has one parameter for each of them. -/
theorem Takes.arity_eq {h : Hierarchy} {m : Method σ} {name : String} {types : List CallType}
    (hm : m.Takes h name types) : m.arity = types.length :=
  (h.acceptsAll_iff_zip.mp hm.2).1

/-- The choice of a method: the first with the very types of the arguments; where there is none,
the first that takes them. -/
inductive Chosen (h : Hierarchy) (table : List (Method σ)) (name : String)
    (types : List CallType) : Method σ → Fit → Prop
  | exact {m : Method σ} (first : IsFirst (·.Has name types) table m) :
      Chosen h table name types m .exact
  | widened {m : Method σ} (inexact : ∀ k ∈ table, ¬ k.Has name types)
      (first : IsFirst (·.Takes h name types) table m) : Chosen h table name types m .widened

section Select

variable {h : Hierarchy} {table : List (Method σ)} {name : String} {types : List CallType}

theorem select_eq_some_iff {m : Method σ} {fit : Fit} :
    select h table name types = some (m, fit) ↔ Chosen h table name types m fit := by
  have hexact : ∀ k : Method σ, k.matchesExactly name types = true ↔ k.Has name types :=
    fun k => matchesExactly_iff
  have htakes : ∀ k : Method σ, k.admits h name types = true ↔ k.Takes h name types :=
    fun k => admits_iff
  rw [select]
  cases hf : table.find? fun k => k.matchesExactly name types with
  | some k =>
    have hk := (find?_eq_some_iff_isFirst hexact).mp hf
    constructor
    · intro he
      obtain ⟨rfl, rfl⟩ := Prod.mk.inj (Option.some.inj he)
      exact .exact hk
    · intro hx
      rcases hx with hm | ⟨hno, -⟩
      · rw [(find?_eq_some_iff_isFirst hexact).mpr hm] at hf
        rw [Option.some.inj hf]
      · rw [(find?_eq_none_iff_forall hexact).mpr hno] at hf
        cases hf
  | none =>
    have hno := (find?_eq_none_iff_forall hexact).mp hf
    simp only [Option.map_eq_some_iff, Prod.mk.injEq]
    constructor
    · intro hx
      obtain ⟨k, hk, rfl, rfl⟩ := hx
      exact .widened hno ((find?_eq_some_iff_isFirst htakes).mp hk)
    · intro hx
      rcases hx with hm | ⟨-, hm⟩
      · rw [(find?_eq_some_iff_isFirst hexact).mpr hm] at hf
        cases hf
      · exact ⟨m, (find?_eq_some_iff_isFirst htakes).mpr hm, rfl, rfl⟩

theorem select_eq_none_iff :
    select h table name types = none ↔ ∀ m ∈ table, ¬ m.Takes h name types := by
  have htakes : ∀ k : Method σ, k.admits h name types = true ↔ k.Takes h name types :=
    fun k => admits_iff
  rw [select]
  cases hf : table.find? fun k => k.matchesExactly name types with
  | some k =>
    have hk := (List.find?_eq_some_iff_append.mp hf).1
    have hmem := List.mem_of_find?_eq_some hf
    simp only [reduceCtorEq, false_iff, not_forall, not_not]
    exact ⟨k, hmem, (matchesExactly_iff.mp hk).takes h⟩
  | none =>
    simp only [Option.map_eq_none_iff]
    exact find?_eq_none_iff_forall htakes

/-- A chosen method is one of the table and takes the arguments. -/
theorem Chosen.takes {m : Method σ} {fit : Fit} (hm : Chosen h table name types m fit) :
    m ∈ table ∧ m.Takes h name types := by
  cases hm with
  | exact first =>
    obtain ⟨hhas, before, after, rfl, -⟩ := first
    exact ⟨by simp, hhas.takes h⟩
  | widened _ first =>
    obtain ⟨htakes, before, after, rfl, -⟩ := first
    exact ⟨by simp, htakes⟩

end Select

/-- Among methods that differ in name or parameters, each is chosen by its own types. -/
theorem chosen_of_mem {table : List (Method σ)}
    (hd : (table.map fun m => (m.name, m.params)).Nodup) {m : Method σ} (hm : m ∈ table)
    (h : Hierarchy) : Chosen h table m.name m.params m .exact := by
  obtain ⟨before, after, rfl⟩ := List.append_of_mem hm
  refine .exact ⟨⟨rfl, rfl⟩, before, after, rfl, ?_⟩
  intro k hk hhas
  rw [List.map_append, List.map_cons, List.nodup_append] at hd
  have hne := hd.2.2 (k.name, k.params) (List.mem_map.mpr ⟨k, hk, rfl⟩)
    (m.name, m.params) List.mem_cons_self
  exact hne (Prod.ext hhas.1 hhas.2)

end Method

end HostCall
