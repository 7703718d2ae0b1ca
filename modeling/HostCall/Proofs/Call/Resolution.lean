import HostCall.Proofs.Call.Selection

/-!
# Selection by position

The method that a call selects is told by its position in the table: the lowest one with the very
types of the arguments, or, where no method has them, the lowest one that takes the arguments. A
call is left without a method only where none takes its arguments, since a method with their very
types takes them as well. In the table of a class at most one method has the very types.
-/

namespace HostCall

variable {σ : Type}

section Positions

variable {α : Type} {p : α → Prop} {xs : List α} {a : α} {i : Nat}

/-- The element at a position of a list is the first one with a property. -/
structure FirstAt (p : α → Prop) (xs : List α) (i : Nat) (a : α) : Prop where
  here : xs[i]? = some a
  holds : p a
  lowest : ∀ j b, j < i → xs[j]? = some b → ¬ p b

theorem isFirst_iff_firstAt : IsFirst p xs a ↔ ∃ i, FirstAt p xs i a := by
  constructor
  · intro hfirst
    obtain ⟨hp, before, after, heq, hno⟩ := hfirst
    subst heq
    refine ⟨before.length, ⟨by simp, hp, ?_⟩⟩
    intro j b hj hb
    rw [List.getElem?_append_left hj] at hb
    exact hno b (List.mem_of_getElem? hb)
  · intro hfirst
    obtain ⟨i, hi, hp, hno⟩ := hfirst
    obtain ⟨hlt, hget⟩ := List.getElem?_eq_some_iff.mp hi
    refine ⟨hp, xs.take i, xs.drop (i + 1), ?_, ?_⟩
    · rw [← hget, ← List.drop_eq_getElem_cons hlt, List.take_append_drop]
    · intro b hb
      obtain ⟨j, hj⟩ := List.mem_iff_getElem?.mp hb
      rw [List.getElem?_take] at hj
      split at hj
      · exact hno j b ‹_› hj
      · cases hj

end Positions

namespace Method

variable {h : Hierarchy} {table : List (Method σ)} {name : String} {types : List CallType}
  {m k l : Method σ} {fit : Fit} {i j : Nat}

/-- A method takes arguments that are as many as its parameters and each accepted by the parameter
at its position. -/
theorem takes_iff_getElem? :
    m.Takes h name types ↔
      m.name = name ∧ m.arity = types.length ∧
        ∀ (i : Nat) (declared actual : CallType), m.params[i]? = some declared →
          types[i]? = some actual → h.accepts declared actual = true := by
  rw [Takes, Hierarchy.AcceptsAll, List.forall₂_iff_get, arity]
  refine and_congr_right fun _ => and_congr_right fun _ => ?_
  constructor
  · intro hall i declared actual hd ha
    obtain ⟨hi, hd⟩ := List.getElem?_eq_some_iff.mp hd
    obtain ⟨hi', ha⟩ := List.getElem?_eq_some_iff.mp ha
    rw [← hd, ← ha]
    exact hall i hi hi'
  · intro hall i hi hi'
    exact hall i _ _ (List.getElem?_eq_getElem hi) (List.getElem?_eq_getElem hi')

theorem select_eq_exact_iff_firstAt :
    select h table name types = some (m, .exact) ↔ ∃ i, FirstAt (·.Has name types) table i m := by
  rw [select_eq_some_iff, ← isFirst_iff_firstAt]
  constructor
  · intro hchosen
    cases hchosen with
    | exact first => exact first
  · exact .exact

theorem select_eq_widened_iff_firstAt :
    select h table name types = some (m, .widened) ↔
      (∀ k ∈ table, ¬ k.Has name types) ∧ ∃ i, FirstAt (·.Takes h name types) table i m := by
  rw [select_eq_some_iff, ← isFirst_iff_firstAt]
  constructor
  · intro hchosen
    cases hchosen with
    | widened inexact first => exact ⟨inexact, first⟩
  · intro hx
    exact .widened hx.1 hx.2

theorem exists_exact_iff :
    (∃ m, select h table name types = some (m, .exact)) ↔ ∃ m ∈ table, m.Has name types := by
  constructor
  · intro hx
    obtain ⟨m, hm⟩ := hx
    obtain ⟨i, hi⟩ := select_eq_exact_iff_firstAt.mp hm
    exact ⟨m, List.mem_of_getElem? hi.here, hi.holds⟩
  · intro hx
    obtain ⟨k, hk, hhas⟩ := hx
    cases hs : select h table name types with
    | none =>
      -- every type accepts itself, so the method takes the arguments as well
      exact absurd (hhas.takes h) (select_eq_none_iff.mp hs k hk)
    | some choice =>
      obtain ⟨m, fit⟩ := choice
      cases fit with
      | exact => exact ⟨m, rfl⟩
      | widened => exact absurd hhas ((select_eq_widened_iff_firstAt.mp hs).1 k hk)

/-- Without arguments there is nothing to widen. -/
theorem fit_eq_exact_of_nil (hs : select h table name [] = some (m, fit)) : fit = .exact := by
  cases fit with
  | exact => rfl
  | widened =>
    obtain ⟨inexact, i, hi⟩ := select_eq_widened_iff_firstAt.mp hs
    have hparams : m.params = [] := List.length_eq_zero_iff.mp hi.holds.arity_eq
    exact absurd ⟨hi.holds.1, hparams⟩ (inexact m (List.mem_of_getElem? hi.here))

/-- Methods that differ in name or parameters have the same name and parameters at one position
only. -/
theorem position_unique (hd : (table.map fun m => (m.name, m.params)).Nodup)
    (hi : table[i]? = some k) (hj : table[j]? = some l) (hk : k.Has name types)
    (hl : l.Has name types) : i = j := by
  have hlt : i < (table.map fun m => (m.name, m.params)).length := by
    rw [List.length_map]
    exact (List.getElem?_eq_some_iff.mp hi).1
  apply (List.getElem?_inj hlt hd).mp
  rw [List.getElem?_map, List.getElem?_map, hi, hj, Option.map_some, Option.map_some, hk.1, hk.2,
    hl.1, hl.2]

/-- What a call by name selects from a table, by position. -/
structure Selects (h : Hierarchy) (table : List (Method σ)) (name : String)
    (types : List CallType) : Prop where
  exact : ∀ m, select h table name types = some (m, .exact) ↔
    ∃ i, FirstAt (fun k : Method σ => k.name = name ∧ k.params = types) table i m
  exact_exists : (∃ m, select h table name types = some (m, .exact)) ↔
    ∃ m ∈ table, m.name = name ∧ m.params = types
  /-- In the table of a class no other position has the name and the types. -/
  exact_unique : ∀ (d : ClassDraft σ) (c : HostClass σ), d.build = .ok c → c.methods = table →
    ∀ (i j : Nat) (k l : Method σ), table[i]? = some k → table[j]? = some l →
      k.Has name types → l.Has name types → i = j
  widened : ∀ m, select h table name types = some (m, .widened) ↔
    (∀ k ∈ table, ¬ (k.name = name ∧ k.params = types)) ∧
      ∃ i, FirstAt (fun k : Method σ => k.Takes h name types) table i m
  unmatched : select h table name types = none ↔ ∀ m ∈ table, ¬ m.Takes h name types
  takes : ∀ m : Method σ, m.Takes h name types ↔
    m.name = name ∧ m.arity = types.length ∧
      ∀ (i : Nat) (declared actual : CallType), m.params[i]? = some declared →
        types[i]? = some actual → h.accepts declared actual = true
  no_arguments : types = [] → ∀ m fit, select h table name types = some (m, fit) → fit = .exact

/-- Selection is exact first, then by position, and complete, whatever classes there are. -/
theorem selects_by_position (h : Hierarchy) (table : List (Method σ)) (name : String)
    (types : List CallType) : Selects h table name types where
  exact _ := select_eq_exact_iff_firstAt
  exact_exists := exists_exact_iff
  exact_unique _ c _ hc _ _ _ _ hi hj hk hl :=
    position_unique (hc ▸ c.methods_distinct) hi hj hk hl
  widened _ := select_eq_widened_iff_firstAt
  unmatched := select_eq_none_iff
  takes _ := takes_iff_getElem?
  no_arguments hnil m fit hs := by
    subst hnil
    exact fit_eq_exact_of_nil hs

end Method

end HostCall
