import HostCall.Proofs.Host.Declarations
import HostCall.Proofs.Types.Conversion
import Mathlib.Data.List.Cycle

/-!
# The order of types

Types are ordered by which arguments they accept: object is above all, null below all that is not
primitive, and classes stand as their supertypes lead from one to another. It is no more than a
preorder, since supertypes may lead back to a class: two types accept each other where both are
classes of one cycle, and nowhere else.
-/

namespace HostCall

open Relation (ReflTransGen TransGen)

variable {t u v : CallType} {a b : String}

namespace Hierarchy

variable {h : Hierarchy}

theorem accepts_object_iff : h.accepts t .object = true ↔ t = .object := by
  simp [accepts_iff]

theorem accepts_null_iff : h.accepts t .null = true ↔ t.isPrimitive = false := by
  rw [accepts_iff]
  cases t <;> simp [CallType.isPrimitive]

theorem null_accepts_iff : h.accepts .null u = true ↔ u = .null := by
  rw [accepts_iff]
  cases u <;> simp [CallType.isPrimitive]

theorem primitive_accepts_iff (ht : t.isPrimitive = true) : h.accepts t u = true ↔ u = t := by
  rw [accepts_iff, ht]
  constructor
  · rintro (rfl | rfl | ⟨-, hp⟩ | ⟨a, b, rfl, -⟩)
    · rfl
    · cases ht
    · cases hp
    · cases ht
  · rintro rfl
    exact .inl rfl

theorem accepts_primitive_iff (hu : u.isPrimitive = true) :
    h.accepts t u = true ↔ t = u ∨ t = .object := by
  rw [accepts_iff]
  constructor
  · rintro (rfl | rfl | ⟨rfl, -⟩ | ⟨a, b, -, rfl, -⟩)
    · exact .inl rfl
    · exact .inr rfl
    · cases hu
    · cases hu
  · rintro (rfl | rfl)
    · exact .inl rfl
    · exact .inr (.inl rfl)

theorem host_accepts_iff :
    h.accepts (.host a) u = true ↔ u = .null ∨ ∃ b, u = .host b ∧ h.Leads b a := by
  rw [accepts_iff]
  constructor
  · rintro (rfl | hobject | ⟨rfl, -⟩ | ⟨want, got, hw, rfl, hs⟩)
    · exact .inr ⟨a, rfl, .refl⟩
    · cases hobject
    · exact .inl rfl
    · cases hw
      exact .inr ⟨got, rfl, isSubclass_iff.mp hs⟩
  · rintro (rfl | ⟨b, rfl, hl⟩)
    · exact .inr (.inr (.inl ⟨rfl, rfl⟩))
    · exact .inr (.inr (.inr ⟨a, b, rfl, rfl, isSubclass_iff.mpr hl⟩))

theorem accepts_host_iff :
    h.accepts t (.host b) = true ↔ t = .object ∨ ∃ a, t = .host a ∧ h.Leads b a := by
  cases t with
  | host a => simp [host_accepts_iff]
  | _ => simp [accepts_iff]

theorem accepts_trans (htu : h.accepts t u = true) (huv : h.accepts u v = true) :
    h.accepts t v = true := by
  rcases (accepts_iff h t u).mp htu with rfl | rfl | ⟨rfl, -⟩ | ⟨a, b, rfl, rfl, hs⟩
  · exact huv
  · exact (accepts_iff h _ v).mpr (.inr (.inl rfl))
  · rwa [null_accepts_iff.mp huv]
  · have hba : h.Leads b a := isSubclass_iff.mp hs
    rcases host_accepts_iff.mp huv with rfl | ⟨c, rfl, hcb⟩
    · exact host_accepts_iff.mpr (.inl rfl)
    · exact host_accepts_iff.mpr (.inr ⟨c, rfl, hcb.trans hba⟩)

/-- Apart from a type and itself, only classes that lead to each other accept each other. -/
theorem accepts_both_iff (hne : t ≠ u) :
    h.accepts t u = true ∧ h.accepts u t = true ↔
      ∃ a b, t = .host a ∧ u = .host b ∧ h.Leads a b ∧ h.Leads b a := by
  constructor
  · rintro ⟨htu, hut⟩
    rcases (accepts_iff h t u).mp htu with rfl | rfl | ⟨rfl, -⟩ | ⟨a, b, rfl, rfl, hs⟩
    · exact absurd rfl hne
    · exact absurd (accepts_object_iff.mp hut).symm hne
    · exact absurd (null_accepts_iff.mp hut) hne
    · rcases host_accepts_iff.mp hut with hnull | ⟨c, hc, hl⟩
      · cases hnull
      · cases hc
        exact ⟨a, b, rfl, rfl, hl, isSubclass_iff.mp hs⟩
  · rintro ⟨a, b, rfl, rfl, hab, hba⟩
    exact ⟨host_accepts_iff.mpr (.inr ⟨b, rfl, hba⟩), host_accepts_iff.mpr (.inr ⟨a, rfl, hab⟩)⟩

end Hierarchy

section Cycles

variable {r : String → String → Prop}

theorem exists_isChain_of_transGen (hab : TransGen r a b) :
    ∃ between, List.IsChain r (a :: (between ++ [b])) := by
  induction hab using TransGen.head_induction_on with
  | single hab => exact ⟨[], List.isChain_pair.mpr hab⟩
  | head hac _ ih =>
    obtain ⟨between, hchain⟩ := ih
    exact ⟨_ :: between, List.isChain_cons_cons.mpr ⟨hac, hchain⟩⟩

/-- Each of two classes leads to the other where both are in one cycle. It is not always one that
passes through no class twice. -/
theorem exists_cycle_iff (hne : a ≠ b) :
    (∃ cycle : Cycle String, cycle.Chain r ∧ a ∈ cycle ∧ b ∈ cycle) ↔
      ReflTransGen r a b ∧ ReflTransGen r b a := by
  constructor
  · rintro ⟨cycle, hchain, ha, hb⟩
    have hpair := Cycle.chain_iff_pairwise.mp (hchain.imp fun _ _ => ReflTransGen.single)
    exact ⟨hpair a ha b hb, hpair b hb a ha⟩
  · rintro ⟨hab, hba⟩
    have hab' := (Relation.reflTransGen_iff_eq_or_transGen.mp hab).resolve_left hne.symm
    have hba' := (Relation.reflTransGen_iff_eq_or_transGen.mp hba).resolve_left hne
    obtain ⟨there, hthere⟩ := exists_isChain_of_transGen hab'
    obtain ⟨back, hback⟩ := exists_isChain_of_transGen hba'
    refine ⟨(a :: (there ++ b :: back) : List String), ?_, by simp, by simp⟩
    have hround : List.IsChain r ((a :: there) ++ b :: (back ++ [a])) :=
      List.isChain_split.mpr ⟨hthere, hback⟩
    simpa [Cycle.chain_coe_cons] using hround

end Cycles

theorem CallType.isPrimitive_iff :
    t.isPrimitive = true ↔ t = .boolean ∨ t = .int ∨ t = .long ∨ t = .double := by
  cases t <;> simp [isPrimitive]

namespace Registry

variable {σ : Type}

/-- How types stand to each other where the classes of a registry are declared. -/
structure OrdersTypes (r : Registry σ) : Prop where
  reflexive : ∀ t, r.hierarchy.accepts t t = true
  transitive : ∀ t u v, r.hierarchy.accepts t u = true → r.hierarchy.accepts u v = true →
    r.hierarchy.accepts t v = true
  object_accepts : ∀ t, r.hierarchy.accepts .object t = true
  accepts_object : ∀ t, r.hierarchy.accepts t .object = true ↔ t = .object
  null_accepts : ∀ t, r.hierarchy.accepts .null t = true ↔ t = .null
  accepts_null : ∀ t, r.hierarchy.accepts t .null = true ↔ t.isPrimitive = false
  primitive : ∀ p : CallType,
    p.isPrimitive = true ↔ p = .boolean ∨ p = .int ∨ p = .long ∨ p = .double
  primitive_accepts : ∀ p t, p.isPrimitive = true → (r.hierarchy.accepts p t = true ↔ t = p)
  accepts_primitive : ∀ p t, p.isPrimitive = true →
    (r.hierarchy.accepts t p = true ↔ t = p ∨ t = .object)
  /-- Zero or more steps, each from a registered class to one of its supertypes. -/
  accepts_class : ∀ c t, r.hierarchy.accepts t (.host c) = true ↔
    t = .object ∨ ∃ sup, t = .host sup ∧ ReflTransGen r.Extends c sup
  /-- Each class of a cycle is registered and declares the next one as a supertype. -/
  accepts_both : ∀ t u, t ≠ u →
    (r.hierarchy.accepts t u = true ∧ r.hierarchy.accepts u t = true ↔
      ∃ a b, t = .host a ∧ u = .host b ∧
        ∃ cycle : Cycle String, cycle.Chain r.Extends ∧ a ∈ cycle ∧ b ∈ cycle)

theorem ordersTypes (r : Registry σ) : r.OrdersTypes where
  reflexive t := (r.hierarchy.accepts_iff t t).mpr (.inl rfl)
  transitive _ _ _ := Hierarchy.accepts_trans
  object_accepts t := (r.hierarchy.accepts_iff .object t).mpr (.inr (.inl rfl))
  accepts_object _ := Hierarchy.accepts_object_iff
  null_accepts _ := Hierarchy.null_accepts_iff
  accepts_null _ := Hierarchy.accepts_null_iff
  primitive _ := CallType.isPrimitive_iff
  primitive_accepts _ _ := Hierarchy.primitive_accepts_iff
  accepts_primitive _ _ := Hierarchy.accepts_primitive_iff
  accepts_class c t := by
    simp only [Hierarchy.accepts_host_iff, leads_hierarchy_iff]
  accepts_both t u hne := by
    rw [Hierarchy.accepts_both_iff hne]
    refine exists_congr fun a => exists_congr fun b => and_congr_right fun ht =>
      and_congr_right fun hu => ?_
    have hab : a ≠ b := fun e => hne (by rw [ht, hu, e])
    rw [leads_hierarchy_iff, leads_hierarchy_iff, exists_cycle_iff hab]

end Registry

end HostCall
