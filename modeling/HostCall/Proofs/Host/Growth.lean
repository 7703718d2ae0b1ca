import HostCall.Proofs.Call.Selection
import HostCall.Proofs.Host.Declarations
import HostCall.Proofs.Types.Conversion

/-!
# Growing registries

A class that is registered under a new name takes nothing away: the supertypes of the others stay,
so types go on to accept what they accepted, and calls find a method where they found one. An exact
choice stays, since it does not depend on classes; another choice may only move to the front of
the table, to a method that accepts the arguments now.
-/

namespace HostCall

variable {σ : Type}

namespace Hierarchy

/-- All that one hierarchy declares is declared in another one. -/
def Within (h h' : Hierarchy) : Prop := ∀ sub sup, h.Extends sub sup → h'.Extends sub sup

variable {h h' : Hierarchy}

theorem Within.isSubclass (hw : h.Within h') {sub sup : String}
    (hs : h.isSubclass sub sup = true) : h'.isSubclass sub sup = true := by
  rw [isSubclass_iff, Leads] at hs ⊢
  exact Relation.ReflTransGen.mono hw sub sup hs

theorem Within.accepts (hw : h.Within h') {declared actual : CallType}
    (ha : h.accepts declared actual = true) : h'.accepts declared actual = true := by
  rw [accepts_iff] at ha ⊢
  rcases ha with heq | hobject | hnull | ⟨want, got, hd, ha, hs⟩
  · exact .inl heq
  · exact .inr (.inl hobject)
  · exact .inr (.inr (.inl hnull))
  · exact .inr (.inr (.inr ⟨want, got, hd, ha, hw.isSubclass hs⟩))

theorem Within.takes (hw : h.Within h') {m : Method σ} {name : String} {types : List CallType}
    (hm : m.Takes h name types) : m.Takes h' name types :=
  ⟨hm.1, hm.2.imp fun _ _ ha => hw.accepts ha⟩

end Hierarchy

namespace Method

/-- The position in the table of the method that is selected. -/
def selectAt (h : Hierarchy) (table : List (Method σ)) (name : String) (types : List CallType) :
    Option (Nat × Fit) :=
  match table.findIdx? fun m => m.matchesExactly name types with
  | some i => some (i, .exact)
  | none => (table.findIdx? fun m => m.admits h name types).map (·, .widened)

/-- A method is selected as it stands at one position of the table. -/
def SelectedAt (h : Hierarchy) (table : List (Method σ)) (name : String) (types : List CallType)
    (i : Nat) (m : Method σ) (fit : Fit) : Prop :=
  selectAt h table name types = some (i, fit) ∧ table[i]? = some m

variable {h h' : Hierarchy} {table : List (Method σ)} {name : String} {types : List CallType}
  {i : Nat} {m : Method σ} {fit : Fit}

theorem select_eq_some_iff_selectedAt :
    select h table name types = some (m, fit) ↔ ∃ i, SelectedAt h table name types i m fit := by
  rw [select, List.find?_eq_bind_findIdx?_getElem?, List.find?_eq_bind_findIdx?_getElem?]
  unfold SelectedAt selectAt
  cases hexact : table.findIdx? fun m => m.matchesExactly name types with
  | some i =>
    obtain ⟨hi, -⟩ := List.findIdx?_eq_some_iff_getElem.mp hexact
    simp [List.getElem?_eq_getElem hi, and_comm]
  | none =>
    simp only [Option.bind_none, Option.map_eq_some_iff, Option.bind_eq_some_iff, Prod.mk.injEq]
    constructor
    · rintro ⟨_, ⟨i, hi, hm⟩, rfl, rfl⟩
      exact ⟨i, ⟨i, hi, rfl, rfl⟩, hm⟩
    · rintro ⟨i, ⟨_, hi, rfl, rfl⟩, hm⟩
      exact ⟨m, ⟨_, hi, hm⟩, rfl, rfl⟩

/-- An exact choice depends on the table alone. -/
theorem SelectedAt.exact (hs : SelectedAt h table name types i m .exact) :
    SelectedAt h' table name types i m .exact := by
  refine ⟨?_, hs.2⟩
  have hi := hs.1
  rw [selectAt] at hi ⊢
  cases hexact : table.findIdx? fun m => m.matchesExactly name types with
  | some k => simpa [hexact] using hi
  | none => simp [hexact] at hi

/-- Where more is accepted, a method that accepts the arguments may stand before the one that was
chosen. -/
theorem SelectedAt.widened (hs : SelectedAt h table name types i m .widened) (hw : h.Within h') :
    ∃ j m', j ≤ i ∧ SelectedAt h' table name types j m' .widened := by
  have hi := hs.1
  rw [selectAt] at hi
  cases hexact : table.findIdx? fun m => m.matchesExactly name types with
  | some k => simp [hexact] at hi
  | none =>
    have hadmits : (table.findIdx? fun m => m.admits h name types) = some i := by
      simpa [hexact] using hi
    have himp (m : Method σ) (_ : m ∈ table) (hm : m.admits h name types = true) :
        m.admits h' name types = true := admits_iff.mpr (hw.takes (admits_iff.mp hm))
    obtain ⟨j, hle, hj⟩ := List.findIdx?_eq_some_le_of_findIdx?_eq_some himp hadmits
    obtain ⟨hlt, -⟩ := List.findIdx?_eq_some_iff_getElem.mp hj
    refine ⟨j, table[j], hle, ?_, List.getElem?_eq_getElem hlt⟩
    rw [selectAt, hexact, hj]
    rfl

end Method

namespace Registry

/-- What the classes of one registry decide holds with those of another one. -/
structure KeptBy (r r' : Registry σ) : Prop where
  subclass : ∀ sub sup, r.hierarchy.isSubclass sub sup = true →
    r'.hierarchy.isSubclass sub sup = true
  accepts : ∀ declared actual, r.hierarchy.accepts declared actual = true →
    r'.hierarchy.accepts declared actual = true
  exact : ∀ (table : List (Method σ)) name types m,
    Method.select r.hierarchy table name types = some (m, .exact) →
      Method.select r'.hierarchy table name types = some (m, .exact)
  widened : ∀ (table : List (Method σ)) name types m,
    Method.select r.hierarchy table name types = some (m, .widened) →
      ∃ i j m', Method.SelectedAt r.hierarchy table name types i m .widened ∧
        Method.SelectedAt r'.hierarchy table name types j m' .widened ∧ j ≤ i ∧
          Method.select r'.hierarchy table name types = some (m', .widened)
  resolves : ∀ (table : List (Method σ)) name types,
    Method.select r.hierarchy table name types ≠ none →
      Method.select r'.hierarchy table name types ≠ none

variable {r r' : Registry σ} {c : HostClass σ}

theorem KeptBy.of_within (hw : r.hierarchy.Within r'.hierarchy) : r.KeptBy r' where
  subclass _ _ := hw.isSubclass
  accepts _ _ := hw.accepts
  exact table name types m hm := by
    obtain ⟨i, hi⟩ := Method.select_eq_some_iff_selectedAt.mp hm
    exact Method.select_eq_some_iff_selectedAt.mpr ⟨i, hi.exact⟩
  widened table name types m hm := by
    obtain ⟨i, hi⟩ := Method.select_eq_some_iff_selectedAt.mp hm
    obtain ⟨j, m', hle, hj⟩ := hi.widened hw
    exact ⟨i, j, m', hi, hj, hle, Method.select_eq_some_iff_selectedAt.mpr ⟨j, hj⟩⟩
  resolves table name types hsome hnone := by
    refine hsome (Method.select_eq_none_iff.mpr fun m hm htakes => ?_)
    exact Method.select_eq_none_iff.mp hnone m hm (hw.takes htakes)

theorem within_insert (hnew : r.contains c.name = false) :
    r.hierarchy.Within (r.insert c).hierarchy := by
  intro sub sup he
  rw [extends_hierarchy_iff] at he ⊢
  exact he.insert (get?_eq_none_iff.mpr hnew)

theorem value_register (r : Registry σ) (c : HostClass σ) :
    (r.register c).value = (r.get? c.name, r.insert c) := by
  rw [register]
  split <;> rfl

/-- Registering a class under a new name keeps what was decided before. -/
theorem keptBy_register (hnew : r.contains c.name = false) :
    r.KeptBy (r.register c).value.2 := by
  rw [value_register]
  exact .of_within (within_insert hnew)

/-- Registers classes one after the other. -/
def registerAll (r : Registry σ) : List (HostClass σ) → Registry σ
  | [] => r
  | c :: cs => registerAll (r.register c).value.2 cs

theorem within_registerAll {cs : List (HostClass σ)}
    (hnew : ∀ c ∈ cs, r.contains c.name = false) (hd : (cs.map fun c => c.name).Nodup) :
    r.hierarchy.Within (r.registerAll cs).hierarchy := by
  induction cs generalizing r with
  | nil => exact fun _ _ he => he
  | cons c cs ih =>
    obtain ⟨hc, hcs⟩ := List.nodup_cons.mp hd
    have hfirst := within_insert (hnew c List.mem_cons_self)
    have hrest : ∀ d ∈ cs, (r.insert c).contains d.name = false := fun d hmem => by
      have hne : c.name ≠ d.name := fun he => hc (List.mem_map.mpr ⟨d, hmem, he.symm⟩)
      exact contains_insert_of_ne hne (hnew d (List.mem_cons_of_mem c hmem))
    rw [registerAll, value_register]
    exact fun sub sup he => ih hrest hcs sub sup (hfirst sub sup he)

/-- Filling a registry with classes of distinct new names keeps what was decided before. -/
theorem keptBy_registerAll {cs : List (HostClass σ)}
    (hnew : ∀ c ∈ cs, r.contains c.name = false) (hd : (cs.map fun c => c.name).Nodup) :
    r.KeptBy (r.registerAll cs) := .of_within (within_registerAll hnew hd)

end Registry

namespace Stock

/-- A class without members. -/
def bare (name : String) (supertypes : List String) : HostClass Unit where
  name
  native := name
  supertypes
  constructors_distinct := by decide
  fields_distinct := by decide
  methods_distinct := by decide

def registry : Registry Unit := Registry.empty.insert (bare "demo.Paper" ["demo.Stock"])

/-- The class that leads from paper to items. -/
def stock : HostClass Unit := bare "demo.Stock" ["demo.Item"]

def put (type : CallType) : Method Unit where
  name := "put"
  params := [type]
  body s _ := ({ outcome := .returned .null }, s)

def table : List (Method Unit) := [put (.host "demo.Item"), put .object]

/-- Paper is put as an item where it is one, and as an object otherwise. -/
theorem selectAt_table (h : Hierarchy) :
    Method.selectAt h table "put" [.host "demo.Paper"] =
      some (if h.isSubclass "demo.Paper" "demo.Item" then 0 else 1, .widened) := by
  cases hs : h.isSubclass "demo.Paper" "demo.Item" <;>
    simp [Method.selectAt, table, put, Method.matchesExactly, Method.admits, Method.arity,
      Hierarchy.accepts, hs, List.findIdx?_cons]

end Stock

/-- The class between paper and items moves the choice to the front of the table, and with it the
method that is selected. -/
theorem stock_keptBy_register :
    let before := Stock.registry.hierarchy
    let after := (Stock.registry.register Stock.stock).value.2.hierarchy
    Stock.registry.contains Stock.stock.name = false ∧
      Stock.registry.KeptBy (Stock.registry.register Stock.stock).value.2 ∧
      Method.SelectedAt before Stock.table "put" [.host "demo.Paper"] 1 (Stock.put .object)
        .widened ∧
      Method.SelectedAt after Stock.table "put" [.host "demo.Paper"] 0
        (Stock.put (.host "demo.Item")) .widened ∧
      Method.select before Stock.table "put" [.host "demo.Paper"] =
        some (Stock.put .object, .widened) ∧
      Method.select after Stock.table "put" [.host "demo.Paper"] =
        some (Stock.put (.host "demo.Item"), .widened) := by
  intro before after
  have hnew : Stock.registry.contains Stock.stock.name = false := by decide
  have hbefore : before = ⟨[("demo.Paper", ["demo.Stock"])]⟩ := rfl
  have hafter : after = ⟨[("demo.Paper", ["demo.Stock"]), ("demo.Stock", ["demo.Item"])]⟩ := by
    change (Stock.registry.register Stock.stock).value.2.hierarchy = _
    rw [Registry.value_register]
    rfl
  have hfirst : Method.SelectedAt before Stock.table "put" [.host "demo.Paper"] 1
      (Stock.put .object) .widened := by
    refine ⟨?_, rfl⟩
    rw [Stock.selectAt_table, hbefore]
    simp [Hierarchy.isSubclass, Hierarchy.search, Hierarchy.supertypes, List.lookup_cons]
  have hthen : Method.SelectedAt after Stock.table "put" [.host "demo.Paper"] 0
      (Stock.put (.host "demo.Item")) .widened := by
    refine ⟨?_, rfl⟩
    rw [Stock.selectAt_table, hafter]
    simp [Hierarchy.isSubclass, Hierarchy.search, Hierarchy.supertypes, List.lookup_cons]
  exact ⟨hnew, Registry.keptBy_register hnew, hfirst, hthen,
    Method.select_eq_some_iff_selectedAt.mpr ⟨1, hfirst⟩,
    Method.select_eq_some_iff_selectedAt.mpr ⟨0, hthen⟩⟩

end HostCall
