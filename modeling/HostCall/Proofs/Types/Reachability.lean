import HostCall.Types.Hierarchy
import Mathlib.Logic.Relation

/-!
# Classes that supertypes lead to

A class is searched among pending ones and all that their supertypes lead to, never twice through
one class. The search answers whether supertypes lead to the class at all, whatever cycles there
are: what was seen is not the class, and its supertypes were seen as well or are pending, so
nothing is missed by passing over what was seen.
-/

namespace HostCall.Hierarchy

/-- A class declares another one as a direct supertype. -/
def Extends (h : Hierarchy) (sub sup : String) : Prop := sup ∈ h.supertypes sub

/-- Supertypes lead from a class to another one, in zero or more steps. -/
def Leads (h : Hierarchy) (sub sup : String) : Prop := Relation.ReflTransGen h.Extends sub sup

variable {h : Hierarchy} {goal : String} {seen pending : List String}

theorem exists_leads_of_search (hs : h.search goal seen pending = true) :
    ∃ c ∈ pending, h.Leads c goal := by
  fun_induction search h goal seen pending with
  | case1 => cases hs
  | case2 => exact ⟨_, List.mem_cons_self, .refl⟩
  | case3 seen c pending _ _ ih =>
    obtain ⟨d, hd, hl⟩ := ih hs
    exact ⟨d, List.mem_cons_of_mem c hd, hl⟩
  | case4 seen c pending _ _ ih =>
    obtain ⟨d, hd, hl⟩ := ih hs
    rcases List.mem_append.mp hd with hd | hd
    · exact ⟨c, List.mem_cons_self, .head hd hl⟩
    · exact ⟨d, List.mem_cons_of_mem c hd, hl⟩

/-- Where a search has got to: the goal was not seen, and the supertypes of what was seen are seen
or pending. -/
structure Explored (h : Hierarchy) (goal : String) (seen pending : List String) : Prop where
  missed : goal ∉ seen
  covered : ∀ c ∈ seen, ∀ d, h.Extends c d → d ∈ seen ∨ d ∈ pending

theorem Explored.skip {c : String} (he : h.Explored goal seen (c :: pending)) (hc : c ∈ seen) :
    h.Explored goal seen pending where
  missed := he.missed
  covered a ha d hd := by
    rcases he.covered a ha d hd with hseen | hpending
    · exact .inl hseen
    · rcases List.mem_cons.mp hpending with rfl | hrest
      · exact .inl hc
      · exact .inr hrest

theorem Explored.visit {c : String} (he : h.Explored goal seen (c :: pending)) (hc : c ≠ goal) :
    h.Explored goal (c :: seen) (h.supertypes c ++ pending) where
  missed hmem := by
    rcases List.mem_cons.mp hmem with heq | hseen
    · exact hc heq.symm
    · exact he.missed hseen
  covered a ha d hd := by
    rcases List.mem_cons.mp ha with rfl | ha
    · exact .inr (List.mem_append_left _ hd)
    · rcases he.covered a ha d hd with hseen | hpending
      · exact .inl (List.mem_cons_of_mem _ hseen)
      · rcases List.mem_cons.mp hpending with rfl | hrest
        · exact .inl List.mem_cons_self
        · exact .inr (List.mem_append_right _ hrest)

/-- With nothing pending, supertypes do not lead out of what was seen. -/
theorem Explored.not_leads (he : h.Explored goal seen []) {c : String} (hc : c ∈ seen) :
    ¬ h.Leads c goal := by
  intro hl
  have hstep (a b : String) (ha : a ∈ seen) (hb : h.Extends a b) : b ∈ seen :=
    (he.covered a ha b hb).resolve_right List.not_mem_nil
  have hgoal : goal ∈ seen := by
    clear he
    induction hl with
    | refl => exact hc
    | tail _ hb ih => exact hstep _ _ ih hb
  exact he.missed hgoal

theorem search_of_leads (he : h.Explored goal seen pending) {c : String}
    (hc : c ∈ seen ∨ c ∈ pending) (hl : h.Leads c goal) : h.search goal seen pending = true := by
  fun_induction search h goal seen pending with
  | case1 seen =>
    have hseen : c ∈ seen := hc.resolve_right List.not_mem_nil
    exact absurd hl (he.not_leads hseen)
  | case2 => rfl
  | case3 seen d pending _ hd ih =>
    have hmem : d ∈ seen := List.contains_iff_mem.mp hd
    refine ih (he.skip hmem) ?_
    rcases hc with hc | hc
    · exact .inl hc
    · rcases List.mem_cons.mp hc with rfl | hc
      · exact .inl hmem
      · exact .inr hc
  | case4 seen d pending hne _ ih =>
    refine ih (he.visit hne) ?_
    rcases hc with hc | hc
    · exact .inl (List.mem_cons_of_mem d hc)
    · rcases List.mem_cons.mp hc with rfl | hc
      · exact .inl List.mem_cons_self
      · exact .inr (List.mem_append_right _ hc)

/-- A class is a subclass of exactly those that its supertypes lead to. -/
theorem isSubclass_iff {sub sup : String} : h.isSubclass sub sup = true ↔ h.Leads sub sup := by
  rw [isSubclass]
  constructor
  · intro hs
    obtain ⟨c, hc, hl⟩ := exists_leads_of_search hs
    rwa [List.mem_singleton.mp hc] at hl
  · intro hl
    have he : h.Explored sup [] [sub] :=
      ⟨List.not_mem_nil, fun _ hc => absurd hc List.not_mem_nil⟩
    exact search_of_leads he (.inr List.mem_cons_self) hl

end HostCall.Hierarchy
