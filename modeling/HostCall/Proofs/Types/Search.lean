import HostCall.Proofs.Host.Declarations

/-!
# The search for a class

A search that goes on with the class it found last looks at every declared supertype once at most,
so the number of declared supertypes bounds its turns, whatever cycles there are. In which order
pending classes are taken makes no difference to the answer, and neither does the order in which
supertypes are declared, nor how often one of them is.
-/

namespace HostCall

open Relation (ReflTransGen)

namespace Hierarchy

/-- A search that gives up after some turns. Each turn takes the pending class that was found last;
the supertypes of a class are found in the order in which they are declared. -/
def searchWithin (h : Hierarchy) (goal : String) : Nat → List String → List String → Option Bool
  | 0, _, _ => none
  | _ + 1, _, [] => some false
  | turns + 1, seen, c :: pending =>
    if c = goal then some true
    else if c ∈ seen then searchWithin h goal turns seen pending
    else searchWithin h goal turns (c :: seen) ((h.supertypes c).reverse ++ pending)

/-- How many supertypes are declared. -/
def size (h : Hierarchy) : Nat := (h.declared.flatMap Prod.snd).length

/-- How many supertypes the classes declare that were not seen yet. -/
def unfound (h : Hierarchy) (seen : List String) : Nat :=
  ((h.declared.filter fun d => !seen.contains d.1).flatMap Prod.snd).length

variable {h h' : Hierarchy} {goal sub sup c : String} {seen pending pending' : List String}
  {turns : Nat}

theorem unfound_nil (h : Hierarchy) : h.unfound [] = h.size := by
  have hall : (h.declared.filter fun d => !([] : List String).contains d.1) = h.declared :=
    List.filter_eq_self.mpr fun _ _ => rfl
  rw [unfound, size, hall]

section Declarations

variable (d : String × List String) (declared : List (String × List String))

theorem supertypes_cons (c : String) :
    supertypes ⟨d :: declared⟩ c = if c = d.1 then d.2 else supertypes ⟨declared⟩ c := by
  rw [supertypes, supertypes, List.lookup_cons]
  by_cases heq : c = d.1
  · simp [heq]
  · have hne : (c == d.1) = false := beq_false_of_ne heq
    simp [heq, hne]

theorem unfound_cons (seen : List String) :
    unfound ⟨d :: declared⟩ seen =
      (if d.1 ∈ seen then 0 else d.2.length) + unfound ⟨declared⟩ seen := by
  rw [unfound, unfound, List.filter_cons]
  by_cases hd : d.1 ∈ seen
  · rw [if_pos hd, if_neg (by simp [hd]), Nat.zero_add]
  · rw [if_neg hd, if_pos (by simp [hd]), List.flatMap_cons, List.length_append]

theorem unfound_seen_le (c : String) (seen : List String) :
    unfound ⟨declared⟩ (c :: seen) ≤ unfound ⟨declared⟩ seen := by
  induction declared with
  | nil => exact Nat.le_refl 0
  | cons d declared ih =>
    rw [unfound_cons, unfound_cons]
    have hhead : (if d.1 ∈ c :: seen then 0 else d.2.length) ≤
        if d.1 ∈ seen then 0 else d.2.length := by
      by_cases hd : d.1 ∈ seen
      · simp [hd]
      · rw [if_neg hd]
        split <;> omega
    omega

end Declarations

/-- The supertypes of a class that is seen for the first time are found once and for all. -/
theorem unfound_seen_add_le (h : Hierarchy) (hc : c ∉ seen) :
    h.unfound (c :: seen) + (h.supertypes c).length ≤ h.unfound seen := by
  obtain ⟨declared⟩ := h
  induction declared with
  | nil => exact Nat.le_refl 0
  | cons d declared ih =>
    rw [unfound_cons, unfound_cons, supertypes_cons]
    by_cases heq : c = d.1
    · -- a later declaration of the class counts no more
      have hle := unfound_seen_le declared c seen
      subst heq
      rw [if_pos List.mem_cons_self, if_neg hc, if_pos rfl]
      omega
    · have hmem : d.1 ∈ c :: seen ↔ d.1 ∈ seen := by
        simp [Ne.symm heq]
      rw [if_neg heq]
      simp only [hmem]
      omega

theorem Explored.mono (he : h.Explored goal seen pending) (hp : ∀ c ∈ pending, c ∈ pending') :
    h.Explored goal seen pending' where
  missed := he.missed
  covered a ha d hd := (he.covered a ha d hd).imp_right (hp d)

theorem search_iff (he : h.Explored goal seen pending) :
    h.search goal seen pending = true ↔ ∃ c, (c ∈ seen ∨ c ∈ pending) ∧ h.Leads c goal := by
  constructor
  · intro hs
    obtain ⟨c, hc, hl⟩ := exists_leads_of_search hs
    exact ⟨c, .inr hc, hl⟩
  · intro hx
    obtain ⟨c, hc, hl⟩ := hx
    exact search_of_leads he hc hl

theorem search_congr (he : h.Explored goal seen pending) (hp : ∀ c, c ∈ pending ↔ c ∈ pending') :
    h.search goal seen pending = h.search goal seen pending' := by
  have he' : h.Explored goal seen pending' := he.mono fun c => (hp c).mp
  rw [Bool.eq_iff_iff, search_iff he, search_iff he']
  simp only [hp]

/-- With as many turns as there are classes to look at, and one to end, a search does not give up. -/
theorem searchWithin_eq (hn : h.unfound seen + pending.length < turns)
    (he : h.Explored goal seen pending) :
    h.searchWithin goal turns seen pending = some (h.search goal seen pending) := by
  induction turns generalizing seen pending with
  | zero => exact absurd hn (Nat.not_lt_zero _)
  | succ turns ih =>
    cases pending with
    | nil => rw [searchWithin, search]
    | cons c pending =>
      rw [List.length_cons] at hn
      rw [searchWithin, search]
      by_cases hgoal : c = goal
      · rw [if_pos hgoal, if_pos hgoal]
      rw [if_neg hgoal, if_neg hgoal]
      by_cases hc : c ∈ seen
      · rw [if_pos hc, dif_pos (List.contains_iff_mem.mpr hc)]
        exact ih (by omega) (he.skip hc)
      · rw [if_neg hc, dif_neg fun h => hc (List.contains_iff_mem.mp h)]
        have hfound := unfound_seen_add_le h hc
        have hvisit := he.visit hgoal
        -- the two searches put the same classes in front, in opposite orders
        have hsame (d : String) :
            d ∈ h.supertypes c ++ pending ↔ d ∈ (h.supertypes c).reverse ++ pending := by
          simp
        rw [search_congr hvisit hsame]
        apply ih
        · rw [List.length_append, List.length_reverse]
          omega
        · exact hvisit.mono fun d => (hsame d).mp

theorem searchWithin_eq_isSubclass (hn : h.size + 1 < turns) :
    h.searchWithin sup turns [] [sub] = some (h.isSubclass sub sup) := by
  apply searchWithin_eq
  · rw [unfound_nil]
    exact hn
  · exact ⟨List.not_mem_nil, fun _ hc => absurd hc List.not_mem_nil⟩

-- A cycle of three classes takes the most turns there can be.
example :
    let cycle : Hierarchy := ⟨[("Square", ["Rect"]), ("Rect", ["Shape"]), ("Shape", ["Square"])]⟩
    cycle.searchWithin "Circle" (cycle.size + 2) [] ["Square"] = some false ∧
      cycle.searchWithin "Circle" (cycle.size + 1) [] ["Square"] = none := by
  decide

/-- Classes that declare the same supertypes lead to the same classes. -/
theorem isSubclass_congr
    (hs : ∀ name sup, sup ∈ h'.supertypes name ↔ sup ∈ h.supertypes name) (sub sup : String) :
    h'.isSubclass sub sup = h.isSubclass sub sup := by
  have hstep : h'.Extends = h.Extends := by
    funext a b
    exact propext (hs a b)
  rw [Bool.eq_iff_iff, isSubclass_iff, isSubclass_iff, Leads, Leads, hstep]

end Hierarchy

namespace Registry

variable {σ : Type}

/-- What the search for a class among the supertypes of a registry answers. -/
structure DecidesSubclasses (r : Registry σ) : Prop where
  /-- It ends after as many turns as supertypes are declared, and two more. -/
  ends : ∀ sub sup turns, r.hierarchy.size + 1 < turns →
    r.hierarchy.searchWithin sup turns [] [sub] = some (r.hierarchy.isSubclass sub sup)
  /-- Zero or more steps, each from a registered class to one of its supertypes. -/
  reachable : ∀ sub sup, r.hierarchy.isSubclass sub sup = true ↔ ReflTransGen r.Extends sub sup
  unregistered : ∀ sub sup, r.contains sub = false →
    (r.hierarchy.isSubclass sub sup = true ↔ sub = sup)
  /-- Neither the order nor the number of times in which supertypes are declared matters. -/
  steady : ∀ r' : Registry σ,
    (∀ name sup, sup ∈ r'.hierarchy.supertypes name ↔ sup ∈ r.hierarchy.supertypes name) →
      ∀ sub sup, r'.hierarchy.isSubclass sub sup = r.hierarchy.isSubclass sub sup

/-- Nothing leads out of a name that is not registered. -/
theorem not_extends_of_unregistered {r : Registry σ} {sub : String} (h : r.contains sub = false)
    (sup : String) : ¬ r.Extends sub sup := by
  intro he
  obtain ⟨c, hc, -⟩ := he
  rw [get?_eq_none_iff.mpr h] at hc
  cases hc

theorem decidesSubclasses (r : Registry σ) : r.DecidesSubclasses where
  ends _ _ _ hn := Hierarchy.searchWithin_eq_isSubclass hn
  reachable sub sup := by
    rw [Hierarchy.isSubclass_iff, leads_hierarchy_iff]
  unregistered sub sup hsub := by
    rw [Hierarchy.isSubclass_iff, leads_hierarchy_iff]
    constructor
    · intro hl
      cases Relation.ReflTransGen.cases_head hl with
      | inl heq => exact heq
      | inr hstep =>
        obtain ⟨next, he, -⟩ := hstep
        exact absurd he (not_extends_of_unregistered hsub next)
    · intro heq
      subst heq
      exact .refl
  steady _ hs := Hierarchy.isSubclass_congr hs

end Registry

end HostCall
