import Mathlib.Data.List.Dedup
import HostCall.Binding.Basic
import HostCall.Proofs.Host.Growth
import HostCall.Proofs.Text.Order

/-!
# Registration histories

When classes were registered one after the other, a registry has under each name the class of that
name that came last. Its names are distinct and in the order of their bytes. Where no two classes
share a name, the order in which they came makes no difference to anything that looks classes up.
-/

namespace HostCall

variable {σ : Type}

/-- The last class of a name among some classes. -/
def IsLastNamed (cs : List (HostClass σ)) (name : String) (c : HostClass σ) : Prop :=
  c.name = name ∧ ∃ before after, cs = before ++ c :: after ∧ ∀ d ∈ after, d.name ≠ name

theorem find?_reverse_eq_some_iff {cs : List (HostClass σ)} {name : String} {c : HostClass σ} :
    (cs.reverse.find? fun c => c.name == name) = some c ↔ IsLastNamed cs name c := by
  rw [List.find?_eq_some_iff_append, IsLastNamed]
  simp only [beq_iff_eq, Bool.not_eq_eq_eq_not, Bool.not_true, beq_eq_false_iff_ne]
  refine and_congr_right fun _ => ?_
  constructor
  · intro h
    obtain ⟨after, before, heq, hafter⟩ := h
    refine ⟨before.reverse, after.reverse, ?_, fun d hd => hafter d (List.mem_reverse.mp hd)⟩
    rw [← List.reverse_reverse cs, heq]
    simp
  · intro h
    obtain ⟨before, after, heq, hafter⟩ := h
    refine ⟨after.reverse, before.reverse, ?_, fun d hd => hafter d (List.mem_reverse.mp hd)⟩
    rw [heq]
    simp

namespace Registry

variable {r r' : Registry σ} {c : HostClass σ} {cs ds : List (HostClass σ)} {name : String}

theorem get?_insert_self : (r.insert c).get? c.name = some c :=
  Std.TreeMap.getElem?_insert_self

theorem registerAll_concat (r : Registry σ) (cs : List (HostClass σ)) (c : HostClass σ) :
    r.registerAll (cs ++ [c]) = (r.registerAll cs).insert c := by
  induction cs generalizing r with
  | nil => rw [List.nil_append, registerAll, registerAll, registerAll, value_register]
  | cons d cs ih => rw [List.cons_append, registerAll, ih, registerAll]

theorem get?_registerAll (r : Registry σ) (cs : List (HostClass σ)) (name : String) :
    (r.registerAll cs).get? name =
      (cs.reverse.find? fun c => c.name == name).or (r.get? name) := by
  induction cs generalizing r with
  | nil => rfl
  | cons c cs ih =>
    rw [registerAll, value_register, ih, List.reverse_cons, List.find?_append, Option.or_assoc,
      List.find?_singleton]
    congr 1
    by_cases hc : c.name = name
    · subst hc
      rw [get?_insert_self, if_pos (beq_self_eq_true c.name)]
      rfl
    · rw [get?_insert_of_ne hc, if_neg (mt eq_of_beq hc)]
      rfl

/-- The registry after classes were registered, where there was none before. -/
def ofHistory (cs : List (HostClass σ)) : Registry σ := empty.registerAll cs

theorem get?_ofHistory (cs : List (HostClass σ)) (name : String) :
    (ofHistory cs).get? name = cs.reverse.find? fun c => c.name == name := by
  have hempty : (empty : Registry σ).get? name = none := Std.TreeMap.getElem?_emptyc
  rw [ofHistory, get?_registerAll, hempty, Option.or_none]

theorem get?_ofHistory_eq_some_iff :
    (ofHistory cs).get? name = some c ↔ IsLastNamed cs name c := by
  rw [get?_ofHistory, find?_reverse_eq_some_iff]

theorem get?_ofHistory_eq_none_iff :
    (ofHistory cs).get? name = none ↔ ∀ c ∈ cs, c.name ≠ name := by
  rw [get?_ofHistory, List.find?_eq_none]
  simp

theorem contains_eq_isSome_get? (r : Registry σ) (name : String) :
    r.contains name = (r.get? name).isSome :=
  Std.TreeMap.contains_eq_isSome_getElem?

theorem supertypes_hierarchy (r : Registry σ) (name : String) :
    r.hierarchy.supertypes name = ((r.get? name).map fun c => c.supertypes).getD [] := by
  rw [Hierarchy.supertypes, lookup_declared]

theorem mem_names_iff : name ∈ r.names ↔ r.contains name = true :=
  Std.TreeMap.mem_keys

theorem mem_names_ofHistory : name ∈ (ofHistory cs).names ↔ name ∈ cs.map fun c => c.name := by
  have hnone : (ofHistory cs).get? name = none ↔ name ∉ cs.map fun c => c.name := by
    rw [get?_ofHistory_eq_none_iff]
    simp
  rw [mem_names_iff, contains_eq_isSome_get?, ← not_iff_not, ← hnone]
  simp

theorem size_ofHistory (cs : List (HostClass σ)) :
    (ofHistory cs).size = (cs.map fun c => c.name).dedup.length := by
  have hnodup : (ofHistory cs).names.Nodup := Text.nodup_keys _
  have hperm : (ofHistory cs).names.Perm (cs.map fun c => c.name).dedup := by
    rw [List.perm_ext_iff_of_nodup hnodup (List.nodup_dedup _)]
    intro name
    rw [mem_names_ofHistory, List.mem_dedup]
  exact Std.TreeMap.length_keys.symm.trans hperm.length_eq

/-- The warning about a class that takes the place of another one. -/
def replacing (c : HostClass σ) : Note :=
  .log .warn ("class " ++ c.name ++ " registered twice; keeping the newer descriptor")

theorem register_ofHistory (cs : List (HostClass σ)) (c : HostClass σ) :
    (ofHistory cs).register c =
      ⟨((ofHistory cs).get? c.name, ofHistory (cs ++ [c])),
        if ((ofHistory cs).get? c.name).isSome then [replacing c] else []⟩ := by
  have hnext : ofHistory (cs ++ [c]) = (ofHistory cs).insert c := registerAll_concat empty cs c
  rw [hnext, register]
  split <;> rfl

/-! ## Registries that agree -/

/-- Nothing that looks classes up tells two registries apart. -/
structure Agrees (r r' : Registry σ) : Prop where
  get? : ∀ name, r.get? name = r'.get? name
  names : r.names = r'.names
  size : r.size = r'.size
  supertypes : ∀ name, r.hierarchy.supertypes name = r'.hierarchy.supertypes name
  subclass : ∀ sub sup, r.hierarchy.isSubclass sub sup = r'.hierarchy.isSubclass sub sup
  accepts : ∀ declared actual,
    r.hierarchy.accepts declared actual = r'.hierarchy.accepts declared actual
  select : ∀ (table : List (Method σ)) name types,
    Method.select r.hierarchy table name types = Method.select r'.hierarchy table name types
  bind : ∀ typeName config, r.bind typeName config = r'.bind typeName config

/-- A registry is what it has under each name. -/
theorem Agrees.of_get? (h : ∀ name, r.get? name = r'.get? name) : r.Agrees r' := by
  have heq : r.classes.Equiv r'.classes := .of_forall_constGet?_eq h
  have hh : r.hierarchy = r'.hierarchy := by
    rw [hierarchy, hierarchy, heq.toList_eq]
  constructor
  case get? => exact h
  case names => exact heq.keys_eq
  case size => exact heq.size_eq
  case bind =>
    intro typeName config
    rw [Registry.bind, Registry.bind, h]
  all_goals
    intros
    rw [hh]

theorem isLastNamed_iff_of_nodup (hd : (cs.map fun c => c.name).Nodup) :
    IsLastNamed cs name c ↔ c ∈ cs ∧ c.name = name := by
  constructor
  · intro h
    obtain ⟨hname, before, after, heq, -⟩ := h
    rw [heq]
    exact ⟨List.mem_append_right before List.mem_cons_self, hname⟩
  · intro h
    obtain ⟨hc, hname⟩ := h
    obtain ⟨before, after, heq⟩ := List.append_of_mem hc
    refine ⟨hname, before, after, heq, fun d hafter hd' => ?_⟩
    rw [heq, List.map_append, List.map_cons, List.nodup_append] at hd
    have hno : c.name ∉ after.map fun c => c.name := (List.nodup_cons.mp hd.2.1).1
    exact hno (List.mem_map.mpr ⟨d, hafter, hd'.trans hname.symm⟩)

theorem agrees_of_perm (hp : cs.Perm ds) (hd : (cs.map fun c => c.name).Nodup) :
    (ofHistory cs).Agrees (ofHistory ds) := by
  apply Agrees.of_get?
  intro name
  have hd' : (ds.map fun c => c.name).Nodup := (hp.map _).nodup_iff.mp hd
  apply Option.ext
  intro c
  rw [get?_ofHistory_eq_some_iff, get?_ofHistory_eq_some_iff, isLastNamed_iff_of_nodup hd,
    isLastNamed_iff_of_nodup hd', hp.mem_iff]

/-- What a registry is after classes were registered in it. -/
structure LastWins (cs : List (HostClass σ)) : Prop where
  get? : ∀ name c, (ofHistory cs).get? name = some c ↔ IsLastNamed cs name c
  absent : ∀ name, (ofHistory cs).get? name = none ↔ ∀ c ∈ cs, c.name ≠ name
  supertypes : ∀ name c, IsLastNamed cs name c →
    (ofHistory cs).hierarchy.supertypes name = c.supertypes
  unknown : ∀ name, (∀ c ∈ cs, c.name ≠ name) → (ofHistory cs).hierarchy.supertypes name = []
  entries : ∀ name c, (name, c) ∈ (ofHistory cs).classes.toList → c.name = name
  contains : ∀ name, (ofHistory cs).contains name = ((ofHistory cs).get? name).isSome
  size : (ofHistory cs).size = (cs.map fun c => c.name).dedup.length
  ascending : (ofHistory cs).names.Pairwise Text.Precedes
  names : ∀ name, name ∈ (ofHistory cs).names ↔ ∃ c ∈ cs, c.name = name
  /-- Registering one more class answers the class that was there, and warns if there was one. -/
  registers : ∀ c, (ofHistory cs).register c =
    ⟨((ofHistory cs).get? c.name, ofHistory (cs ++ [c])),
      if ((ofHistory cs).get? c.name).isSome then [replacing c] else []⟩
  permutes : ∀ ds, cs.Perm ds → (cs.map fun c => c.name).Nodup →
    (ofHistory cs).Agrees (ofHistory ds)

theorem lastWins (cs : List (HostClass σ)) : LastWins cs where
  get? _ _ := get?_ofHistory_eq_some_iff
  absent _ := get?_ofHistory_eq_none_iff
  supertypes name c hc := by
    rw [supertypes_hierarchy, get?_ofHistory_eq_some_iff.mpr hc]
    rfl
  unknown name hno := by
    rw [supertypes_hierarchy, get?_ofHistory_eq_none_iff.mpr hno]
    rfl
  entries name c hmem :=
    (ofHistory cs).name_eq (Std.TreeMap.mem_toList_iff_getElem?_eq_some.mp hmem)
  contains := contains_eq_isSome_get? _
  size := size_ofHistory cs
  ascending := Text.pairwise_keys _
  names name := by
    rw [mem_names_ofHistory, List.mem_map]
  registers := register_ofHistory cs
  permutes _ := agrees_of_perm

end Registry

end HostCall
