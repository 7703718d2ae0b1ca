import HostCall.Host.Registry
import HostCall.Proofs.Types.Reachability

/-!
# What a registry declares

The hierarchy of a registry has the supertypes of each class that is registered, and none for any
other name. Registering a class under a new name leaves the declarations of all other classes as
they are.
-/

namespace HostCall.Registry

variable {σ : Type} {r : Registry σ} {name : String}

/-- A registered class declares another one as a direct supertype. -/
def Extends (r : Registry σ) (sub sup : String) : Prop :=
  ∃ c, r.get? sub = some c ∧ sup ∈ c.supertypes

theorem mem_declared_iff {supertypes : List String} :
    (name, supertypes) ∈ r.hierarchy.declared ↔
      ∃ c, r.get? name = some c ∧ c.supertypes = supertypes := by
  rw [hierarchy, List.mem_map]
  constructor
  · rintro ⟨⟨other, c⟩, hmem, heq⟩
    obtain ⟨rfl, rfl⟩ := Prod.mk.inj heq
    exact ⟨c, Std.TreeMap.mem_toList_iff_getElem?_eq_some.mp hmem, rfl⟩
  · rintro ⟨c, hc, rfl⟩
    exact ⟨(name, c), Std.TreeMap.mem_toList_iff_getElem?_eq_some.mpr hc, rfl⟩

theorem lookup_declared :
    r.hierarchy.declared.lookup name = (r.get? name).map fun c => c.supertypes := by
  cases hl : r.hierarchy.declared.lookup name with
  | none =>
    cases hc : r.get? name with
    | none => rfl
    | some c =>
      have hno := List.lookup_eq_none_iff.mp hl _ (mem_declared_iff.mpr ⟨c, hc, rfl⟩)
      simp at hno
  | some supertypes =>
    obtain ⟨before, after, heq, -⟩ := List.lookup_eq_some_iff.mp hl
    have hin : (name, supertypes) ∈ r.hierarchy.declared := by
      rw [heq]
      exact List.mem_append_right before List.mem_cons_self
    obtain ⟨c, hc, rfl⟩ := mem_declared_iff.mp hin
    rw [hc]
    rfl

theorem extends_hierarchy_iff {sub sup : String} :
    r.hierarchy.Extends sub sup ↔ r.Extends sub sup := by
  rw [Hierarchy.Extends, Hierarchy.supertypes, lookup_declared, Extends]
  cases r.get? sub with
  | none => simp
  | some c => simp

theorem leads_hierarchy_iff {sub sup : String} :
    r.hierarchy.Leads sub sup ↔ Relation.ReflTransGen r.Extends sub sup := by
  have hstep : r.hierarchy.Extends = r.Extends := by
    funext a b
    exact propext extends_hierarchy_iff
  rw [Hierarchy.Leads, hstep]

theorem get?_eq_none_iff : r.get? name = none ↔ r.contains name = false := by
  rw [contains, Std.TreeMap.contains_eq_isSome_getElem?, Option.isSome_eq_false_iff,
    Option.isNone_iff_eq_none]
  rfl

theorem get?_insert_of_ne {c : HostClass σ} (h : c.name ≠ name) :
    (r.insert c).get? name = r.get? name := by
  have hc : ¬ compare c.name name = .eq := fun e => h (Std.LawfulEqCmp.eq_of_compare e)
  exact (Std.TreeMap.getElem?_insert).trans (if_neg hc)

theorem contains_insert_of_ne {c : HostClass σ} (h : c.name ≠ name)
    (hnew : r.contains name = false) : (r.insert c).contains name = false := by
  rw [← get?_eq_none_iff] at hnew ⊢
  exact (get?_insert_of_ne h).trans hnew

/-- A new class leaves all declarations in place. -/
theorem Extends.insert {sub sup : String} (h : r.Extends sub sup) {c : HostClass σ}
    (hnew : r.get? c.name = none) : (r.insert c).Extends sub sup := by
  obtain ⟨d, hd, hsup⟩ := h
  have hne : c.name ≠ sub := by
    rintro rfl
    rw [hnew] at hd
    cases hd
  exact ⟨d, (get?_insert_of_ne hne).trans hd, hsup⟩

end HostCall.Registry
