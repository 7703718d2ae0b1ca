import HostCall.Proofs.Call.Selection

/-!
# Method selection when a class evolves

A method that is put behind all others is chosen only where it is the only one that takes the
arguments, or the only one that has their very types; elsewhere the choice stays. Methods of
another name or another number of parameters may come and go at any position. Where methods differ
in name or parameters, their order decides neither whether some method takes the arguments nor
which one has their very types.
-/

namespace HostCall

variable {σ : Type}

namespace Method

/-- A method has another name, or another number of parameters, than a call asks for. -/
def Foreign (name : String) (types : List CallType) (m : Method σ) : Prop :=
  m.name ≠ name ∨ m.arity ≠ types.length

/-- A table before and after methods with a property were put in and taken out, each of them at
any position. -/
inductive Edited (p : Method σ → Prop) : List (Method σ) → List (Method σ) → Prop
  | nil : Edited p [] []
  | keep (m : Method σ) {before after : List (Method σ)} (rest : Edited p before after) :
      Edited p (m :: before) (m :: after)
  | insert {m : Method σ} (hm : p m) {before after : List (Method σ)}
      (rest : Edited p before after) : Edited p before (m :: after)
  | delete {m : Method σ} (hm : p m) {before after : List (Method σ)}
      (rest : Edited p before after) : Edited p (m :: before) after

/-- A search that passes over what was put in and taken out finds the same. -/
theorem Edited.find?_eq {p : Method σ → Prop} {f : Method σ → Bool}
    (hf : ∀ m, p m → f m = false) {before after : List (Method σ)} (h : Edited p before after) :
    after.find? f = before.find? f := by
  induction h with
  | nil => rfl
  | keep m _ ih => rw [List.find?_cons, List.find?_cons, ih]
  | insert hm _ ih => rw [List.find?_cons, hf _ hm, ih]
  | delete hm _ ih => rw [List.find?_cons, hf _ hm, ih]

section Select

variable {h : Hierarchy} {table table' : List (Method σ)} {name : String} {types : List CallType}
  {m : Method σ}

theorem Foreign.not_takes (hm : m.Foreign name types) : ¬ m.Takes h name types := by
  intro ht
  rcases hm with hname | harity
  · exact hname ht.1
  · exact harity ht.arity_eq

theorem Foreign.admits_eq (hm : m.Foreign name types) : m.admits h name types = false :=
  Bool.eq_false_iff.mpr fun ha => hm.not_takes (admits_iff.mp ha)

theorem Foreign.matchesExactly_eq (hm : m.Foreign name types) :
    m.matchesExactly name types = false :=
  Bool.eq_false_iff.mpr fun he => hm.not_takes ((matchesExactly_iff.mp he).takes .flat)

theorem select_of_edited (he : Edited (Foreign name types) table table') :
    select h table' name types = select h table name types := by
  rw [select, select, he.find?_eq fun _ => Foreign.matchesExactly_eq,
    he.find?_eq fun _ => Foreign.admits_eq]

/-- The choice when a method is put behind all others. -/
theorem select_concat (h : Hierarchy) (table : List (Method σ)) (m : Method σ) (name : String)
    (types : List CallType) :
    select h (table ++ [m]) name types =
      match select h table name types with
      | some (k, .exact) => some (k, .exact)
      | some (k, .widened) =>
        if m.matchesExactly name types then some (m, .exact) else some (k, .widened)
      | none =>
        if m.matchesExactly name types then some (m, .exact)
        else if m.admits h name types then some (m, .widened) else none := by
  rw [select, select, List.find?_append, List.find?_append, List.find?_singleton,
    List.find?_singleton]
  cases table.find? fun k => k.matchesExactly name types with
  | some k => rfl
  | none =>
    cases table.find? fun k => k.admits h name types with
    | some k => cases m.matchesExactly name types <;> rfl
    | none => cases m.matchesExactly name types <;> cases m.admits h name types <;> rfl

/-- A method takes arguments that no method of a table takes, or has the very types of arguments
that none of its methods has. -/
def Overtakes (h : Hierarchy) (table : List (Method σ)) (name : String) (types : List CallType)
    (m : Method σ) : Prop :=
  select h table name types = none ∧ m.Takes h name types ∨
    (∃ k, select h table name types = some (k, .widened)) ∧ m.Has name types

theorem Overtakes.select_concat_eq (hm : m.Overtakes h table name types) :
    ∃ fit, select h (table ++ [m]) name types = some (m, fit) ∧
      (fit = .exact ↔ m.Has name types) := by
  rw [select_concat, ← matchesExactly_iff]
  rcases hm with ⟨hnone, htakes⟩ | ⟨⟨k, hwidened⟩, hhas⟩
  · rw [hnone]
    cases m.matchesExactly name types with
    | true => exact ⟨.exact, rfl, by simp⟩
    | false => exact ⟨.widened, by simp [admits_iff.mpr htakes], by simp⟩
  · rw [hwidened]
    have he : m.matchesExactly name types = true := matchesExactly_iff.mpr hhas
    exact ⟨.exact, by simp [he], by simp [he]⟩

theorem Overtakes.select_concat_ne (hm : m.Overtakes h table name types) :
    select h (table ++ [m]) name types ≠ select h table name types := by
  obtain ⟨fit, hchoice, hfit⟩ := hm.select_concat_eq
  rw [hchoice]
  rcases hm with ⟨hnone, -⟩ | ⟨⟨k, hwidened⟩, hhas⟩
  · rw [hnone]
    simp
  · rw [hwidened, hfit.mpr hhas]
    simp

theorem select_concat_of_not_overtakes (hm : ¬ m.Overtakes h table name types) :
    select h (table ++ [m]) name types = select h table name types := by
  rw [select_concat]
  cases hs : select h table name types with
  | some choice =>
    obtain ⟨k, fit⟩ := choice
    cases fit with
    | exact => rfl
    | widened =>
      have he : m.matchesExactly name types ≠ true := fun he =>
        hm (.inr ⟨⟨k, hs⟩, matchesExactly_iff.mp he⟩)
      simp only [if_neg he]
  | none =>
    have ha : m.admits h name types ≠ true := fun ha => hm (.inl ⟨hs, admits_iff.mp ha⟩)
    -- a method with the very types of the arguments takes them
    have he : m.matchesExactly name types ≠ true := fun he =>
      ha (admits_iff.mpr ((matchesExactly_iff.mp he).takes h))
    simp only [if_neg he, if_neg ha]

theorem select_concat_ne_iff :
    select h (table ++ [m]) name types ≠ select h table name types ↔
      m.Overtakes h table name types :=
  ⟨fun hne => Classical.not_not.mp fun hm => hne (select_concat_of_not_overtakes hm),
    Overtakes.select_concat_ne⟩

/-- Among methods that differ in name or parameters, the exact choice does not depend on their
order. -/
theorem select_eq_exact_iff (hd : (table.map fun m => (m.name, m.params)).Nodup) :
    select h table name types = some (m, .exact) ↔ m ∈ table ∧ m.Has name types := by
  rw [select_eq_some_iff]
  constructor
  · intro hm
    cases hm with
    | exact first =>
      obtain ⟨hhas, before, after, rfl, -⟩ := first
      exact ⟨by simp, hhas⟩
  · intro hm
    obtain ⟨hmem, rfl, rfl⟩ := hm
    exact chosen_of_mem hd hmem h

/-- What a call by name makes of a table, compared with what it makes of the table after a
change. -/
structure Steady (h : Hierarchy) (table : List (Method σ)) (name : String)
    (types : List CallType) : Prop where
  append_changes : ∀ m, select h (table ++ [m]) name types ≠ select h table name types ↔
    m.Overtakes h table name types
  /-- If the choice changes, it changes to the method that was put behind the others. -/
  append_chooses : ∀ m, select h (table ++ [m]) name types ≠ select h table name types →
    ∃ fit, select h (table ++ [m]) name types = some (m, fit) ∧
      (fit = .exact ↔ m.Has name types)
  edit : ∀ table', Edited (Foreign name types) table table' →
    select h table' name types = select h table name types
  permute : (table.map fun m => (m.name, m.params)).Nodup → ∀ table', table.Perm table' →
    (∀ m, select h table' name types = some (m, .exact) ↔
      select h table name types = some (m, .exact)) ∧
    (select h table' name types = none ↔ select h table name types = none)
  /-- The methods of a draft that makes a class differ in name or parameters. -/
  built : ∀ (d : ClassDraft σ) (c : HostClass σ), d.build = .ok c → d.methods = table →
    (table.map fun m => (m.name, m.params)).Nodup

/-- Whatever the classes of the hierarchy are, tables may evolve without surprises. -/
theorem select_steady (h : Hierarchy) (table : List (Method σ)) (name : String)
    (types : List CallType) : Steady h table name types where
  append_changes _ := select_concat_ne_iff
  append_chooses _ hne := (select_concat_ne_iff.mp hne).select_concat_eq
  edit _ he := select_of_edited he
  permute hd table' hp := by
    have hd' : (table'.map fun m => (m.name, m.params)).Nodup := (hp.map _).nodup_iff.mp hd
    refine ⟨fun m => ?_, ?_⟩
    · rw [select_eq_exact_iff hd', select_eq_exact_iff hd, hp.mem_iff]
    · simp only [select_eq_none_iff, hp.mem_iff]
  built d c hc hm := by
    rw [← hm, ← ClassDraft.toClassDraft_of_build hc]
    exact c.methods_distinct

end Select

end Method

end HostCall
