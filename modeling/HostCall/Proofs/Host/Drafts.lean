import Mathlib.Data.List.Nodup
import HostCall.Host.Declaration

/-!
# Drafts that make a class

A draft makes a class exactly if no two constructors of it have the same parameters, no two fields
the same name, and no two methods both. The class then declares what the draft declares, and each
of its constructors is found by its parameters. Otherwise the first member that repeats an earlier
one is told, constructors before fields and fields before methods.
-/

namespace HostCall

variable {σ : Type}

section Repeats

variable {α β : Type} {key : α → β} {xs : List α} {a : α}

/-- An element is the first one whose key an earlier element has. -/
def IsFirstRepeat (key : α → β) (xs : List α) (a : α) : Prop :=
  ∃ before after, xs = before ++ a :: after ∧ (∃ b ∈ before, key b = key a) ∧
    (before.map key).Nodup

theorem IsFirstRepeat.not_nodup (h : IsFirstRepeat key xs a) : ¬ (xs.map key).Nodup := by
  obtain ⟨before, after, heq, ⟨b, hb, hkey⟩, -⟩ := h
  subst heq
  intro hd
  rw [List.map_append, List.map_cons, List.nodup_append] at hd
  exact hd.2.2 (key b) (List.mem_map.mpr ⟨b, hb, rfl⟩) (key a) List.mem_cons_self hkey

variable [DecidableEq β] {seen : List β} {before after : List α}

theorem firstRepeat_append (h : firstRepeat key seen before = none) :
    firstRepeat key seen (before ++ after) =
      firstRepeat key ((before.map key).reverse ++ seen) after := by
  induction before generalizing seen with
  | nil => rfl
  | cons b before ih =>
    rw [firstRepeat] at h
    split at h
    · cases h
    · rename_i hb
      rw [List.cons_append, firstRepeat, if_neg hb, ih h]
      simp

/-- What is found repeats a key, and nothing before it does. -/
theorem exists_of_firstRepeat (h : firstRepeat key seen xs = some a) :
    ∃ before after, xs = before ++ a :: after ∧ firstRepeat key seen before = none ∧
      (key a ∈ seen ∨ ∃ b ∈ before, key b = key a) := by
  induction xs generalizing seen with
  | nil => cases h
  | cons x xs ih =>
    rw [firstRepeat] at h
    split at h
    · rename_i hx
      obtain rfl := Option.some.inj h
      exact ⟨[], xs, rfl, rfl, .inl hx⟩
    · rename_i hx
      obtain ⟨before, after, heq, hnone, hrepeat⟩ := ih h
      refine ⟨x :: before, after, congrArg (x :: ·) heq, ?_, ?_⟩
      · rw [firstRepeat, if_neg hx, hnone]
      · rcases hrepeat with hseen | ⟨b, hb, hkey⟩
        · rcases List.mem_cons.mp hseen with hkey | hseen
          · exact .inr ⟨x, List.mem_cons_self, hkey.symm⟩
          · exact .inl hseen
        · exact .inr ⟨b, List.mem_cons_of_mem x hb, hkey⟩

theorem firstRepeat_nil_eq_none_iff : firstRepeat key [] xs = none ↔ (xs.map key).Nodup := by
  rw [firstRepeat_eq_none_iff]
  simp

theorem firstRepeat_nil_eq_some_iff :
    firstRepeat key [] xs = some a ↔ IsFirstRepeat key xs a := by
  constructor
  · intro h
    obtain ⟨before, after, heq, hnone, hrepeat⟩ := exists_of_firstRepeat h
    exact ⟨before, after, heq, hrepeat.resolve_left List.not_mem_nil,
      firstRepeat_nil_eq_none_iff.mp hnone⟩
  · intro h
    obtain ⟨before, after, heq, ⟨b, hb, hkey⟩, hd⟩ := h
    have hmem : key a ∈ (before.map key).reverse ++ [] := by
      simpa using ⟨b, hb, hkey⟩
    rw [heq, firstRepeat_append (firstRepeat_nil_eq_none_iff.mpr hd), firstRepeat, if_pos hmem]

end Repeats

namespace ClassDraft

variable {d : ClassDraft σ} {e : ClassError} {c : HostClass σ}

/-- No two members of a draft can be taken for one another. -/
structure Unambiguous (d : ClassDraft σ) : Prop where
  constructors : (d.constructors.map Constructor.params).Nodup
  fields : (d.fields.map Field.name).Nodup
  methods : (d.methods.map fun m => (m.name, m.params)).Nodup

/-- Why a draft makes no class: the first member of a kind that repeats an earlier one, where no
member of the kinds before does. -/
inductive Refused (d : ClassDraft σ) : ClassError → Prop
  | constructor {k : Constructor σ}
      (repeats : IsFirstRepeat Constructor.params d.constructors k) :
      Refused d (.duplicateConstructor d.name k.params)
  | field {f : Field σ} (constructors : (d.constructors.map Constructor.params).Nodup)
      (repeats : IsFirstRepeat Field.name d.fields f) : Refused d (.duplicateField d.name f.name)
  | method {m : Method σ} (constructors : (d.constructors.map Constructor.params).Nodup)
      (fields : (d.fields.map Field.name).Nodup)
      (repeats : IsFirstRepeat (fun m : Method σ => (m.name, m.params)) d.methods m) :
      Refused d (.duplicateMethod d.name m.signature)

theorem Refused.not_unambiguous (h : d.Refused e) : ¬ d.Unambiguous := by
  intro hd
  cases h with
  | constructor repeats => exact repeats.not_nodup hd.constructors
  | field _ repeats => exact repeats.not_nodup hd.fields
  | method _ _ repeats => exact repeats.not_nodup hd.methods

theorem build_cases (d : ClassDraft σ) :
    (∃ e, d.build = .error e ∧ d.Refused e) ∨ ∃ c, d.build = .ok c ∧ c.toClassDraft = d := by
  rw [build]
  split
  · exact .inl ⟨_, rfl, .constructor (firstRepeat_nil_eq_some_iff.mp ‹_›)⟩
  · rename_i hc
    have hconstructors := firstRepeat_nil_eq_none_iff.mp hc
    split
    · exact .inl ⟨_, rfl, .field hconstructors (firstRepeat_nil_eq_some_iff.mp ‹_›)⟩
    · rename_i hf
      have hfields := firstRepeat_nil_eq_none_iff.mp hf
      split
      · exact .inl ⟨_, rfl, .method hconstructors hfields (firstRepeat_nil_eq_some_iff.mp ‹_›)⟩
      · exact .inr ⟨_, rfl, rfl⟩

theorem unambiguous_of_build (h : d.build = .ok c) : d.Unambiguous := by
  rw [← toClassDraft_of_build h]
  exact ⟨c.constructors_distinct, c.fields_distinct, c.methods_distinct⟩

theorem exists_build_iff : (∃ c, d.build = .ok c) ↔ d.Unambiguous := by
  constructor
  · intro hx
    obtain ⟨c, hc⟩ := hx
    exact unambiguous_of_build hc
  · intro hd
    rcases d.build_cases with ⟨e, -, he⟩ | ⟨c, hc, -⟩
    · exact absurd hd he.not_unambiguous
    · exact ⟨c, hc⟩

theorem build_of_refused (h : d.Refused e) : d.build = .error e := by
  rw [build]
  cases h with
  | constructor repeats =>
    have hk := firstRepeat_nil_eq_some_iff.mpr repeats
    split
    · cases hk.symm.trans ‹_›
      rfl
    · cases hk.symm.trans ‹_›
  | field constructors repeats =>
    have hf := firstRepeat_nil_eq_some_iff.mpr repeats
    split
    · exact absurd constructors (firstRepeat_nil_eq_some_iff.mp ‹_›).not_nodup
    · split
      · cases hf.symm.trans ‹_›
        rfl
      · cases hf.symm.trans ‹_›
  | method constructors fields repeats =>
    have hm := firstRepeat_nil_eq_some_iff.mpr repeats
    split
    · exact absurd constructors (firstRepeat_nil_eq_some_iff.mp ‹_›).not_nodup
    · split
      · exact absurd fields (firstRepeat_nil_eq_some_iff.mp ‹_›).not_nodup
      · split
        · cases hm.symm.trans ‹_›
          rfl
        · cases hm.symm.trans ‹_›

theorem build_eq_error_iff : d.build = .error e ↔ d.Refused e := by
  constructor
  · intro h
    rcases d.build_cases with ⟨e', he', hrefused⟩ | ⟨c, hc, -⟩
    · rw [h] at he'
      exact Except.error.inj he' ▸ hrefused
    · rw [h] at hc
      cases hc
  · exact build_of_refused

end ClassDraft

namespace HostClass

variable {c : HostClass σ}

/-- A class has at most one constructor of given parameters. -/
theorem constructor?_eq_some_iff {params : List CallType} {k : Constructor σ} :
    c.constructor? params = some k ↔ k ∈ c.constructors ∧ k.params = params := by
  constructor
  · intro h
    exact ⟨List.mem_of_find?_eq_some h, params_of_constructor? h⟩
  · intro h
    have hk : (k.params == params) = true := beq_iff_eq.mpr h.2
    cases hf : c.constructor? params with
    | none => exact absurd hk (List.find?_eq_none.mp hf k h.1)
    | some k' =>
      have hparams : k'.params = k.params := (params_of_constructor? hf).trans h.2.symm
      rw [List.inj_on_of_nodup_map c.constructors_distinct (List.mem_of_find?_eq_some hf) h.1
        hparams]

end HostClass

namespace ClassDraft

theorem foldl_declare (d : ClassDraft σ) (ds : List (Declaration σ)) :
    ds.foldl declare d =
      { d with
        supertypes := d.supertypes ++ ds.filterMap Declaration.supertype?
        constructors := d.constructors ++ ds.filterMap Declaration.constructor?
        fields := d.fields ++ ds.filterMap Declaration.field?
        methods := d.methods ++ ds.filterMap Declaration.method? } := by
  induction ds generalizing d with
  | nil => simp
  | cons x ds ih =>
    rw [List.foldl_cons, ih]
    cases x <;>
      simp [declare, List.filterMap_cons, Declaration.supertype?, Declaration.constructor?,
        Declaration.field?, Declaration.method?]

/-- What declarations make, for a class of some name over some native type. -/
structure Makes (name native : String) (ds : List (Declaration σ)) : Prop where
  /-- Each kind of member is kept whole and in the order of declaration. -/
  gathers : ofDeclarations name native ds =
    { name, native
      supertypes := ds.filterMap Declaration.supertype?
      constructors := ds.filterMap Declaration.constructor?
      fields := ds.filterMap Declaration.field?
      methods := ds.filterMap Declaration.method? }
  accepts : (∃ c, (ofDeclarations name native ds).build = .ok c) ↔
    ((ds.filterMap Declaration.constructor?).map Constructor.params).Nodup ∧
    ((ds.filterMap Declaration.field?).map Field.name).Nodup ∧
    ((ds.filterMap Declaration.method?).map fun m => (m.name, m.params)).Nodup
  keeps : ∀ c, (ofDeclarations name native ds).build = .ok c →
    c.toClassDraft = ofDeclarations name native ds
  refuses : ∀ e, (ofDeclarations name native ds).build = .error e ↔
    (ofDeclarations name native ds).Refused e
  plain : ∀ c, (ofDeclarations name native ds).build = .ok c → ∀ k,
    c.constructor? [] = some k ↔ ∃ make, k = .plain make ∧ .constructor (.plain make) ∈ ds
  configured : ∀ c, (ofDeclarations name native ds).build = .ok c → ∀ k,
    c.constructor? [.node] = some k ↔
      ∃ make, k = .configured make ∧ .constructor (.configured make) ∈ ds

theorem ofDeclarations_eq (name native : String) (ds : List (Declaration σ)) :
    ofDeclarations name native ds =
      { name, native
        supertypes := ds.filterMap Declaration.supertype?
        constructors := ds.filterMap Declaration.constructor?
        fields := ds.filterMap Declaration.field?
        methods := ds.filterMap Declaration.method? } := by
  rw [ofDeclarations, foldl_declare]
  simp

theorem mem_constructors_ofDeclarations {name native : String} {ds : List (Declaration σ)}
    {k : Constructor σ} :
    k ∈ (ofDeclarations name native ds).constructors ↔ .constructor k ∈ ds := by
  rw [ofDeclarations_eq, List.mem_filterMap]
  constructor
  · intro h
    obtain ⟨x, hx, hk⟩ := h
    cases x with
    | constructor k' => exact Option.some.inj hk ▸ hx
    | supertype _ => cases hk
    | field _ => cases hk
    | method _ => cases hk
  · intro h
    exact ⟨.constructor k, h, rfl⟩

theorem constructor?_of_ofDeclarations {name native : String} {ds : List (Declaration σ)}
    {c : HostClass σ} (h : (ofDeclarations name native ds).build = .ok c) {params : List CallType}
    {k : Constructor σ} :
    c.constructor? params = some k ↔ .constructor k ∈ ds ∧ k.params = params := by
  rw [HostClass.constructor?_eq_some_iff, toClassDraft_of_build h,
    mem_constructors_ofDeclarations]

/-- Declarations of which no two are of the same member make a class; others are refused for the
first member that repeats an earlier one. -/
theorem makes (name native : String) (ds : List (Declaration σ)) : Makes name native ds where
  gathers := ofDeclarations_eq name native ds
  accepts := by
    rw [exists_build_iff, ofDeclarations_eq]
    constructor
    · intro h
      exact ⟨h.constructors, h.fields, h.methods⟩
    · intro h
      exact ⟨h.1, h.2.1, h.2.2⟩
  keeps _ := toClassDraft_of_build
  refuses _ := build_eq_error_iff
  plain c hc k := by
    rw [constructor?_of_ofDeclarations hc]
    constructor
    · intro h
      cases k with
      | plain make => exact ⟨make, rfl, h.1⟩
      | configured make => cases h.2
    · intro h
      obtain ⟨make, hk, hmem⟩ := h
      subst hk
      exact ⟨hmem, rfl⟩
  configured c hc k := by
    rw [constructor?_of_ofDeclarations hc]
    constructor
    · intro h
      cases k with
      | plain make => cases h.2
      | configured make => exact ⟨make, rfl, h.1⟩
    · intro h
      obtain ⟨make, hk, hmem⟩ := h
      subst hk
      exact ⟨hmem, rfl⟩

end ClassDraft

end HostCall
