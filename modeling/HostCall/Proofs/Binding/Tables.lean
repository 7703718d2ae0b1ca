import HostCall.Proofs.Component.Reachable
import HostCall.Proofs.Text.Order

/-!
# The tables of a binding

A binding looks members up in tables that are made of what its class declares. Since no two fields
of a class share a name, none takes the place of another one in the table of fields: it has exactly
the declared fields, each under its name. The table of methods is the list of the declared ones.
-/

namespace HostCall

variable {σ : Type}

namespace FieldTable

variable {t : FieldTable σ} {fields : List (Field σ)} {name : String}

theorem contains_eq_isSome_get? (t : FieldTable σ) (name : String) :
    t.contains name = (t.get? name).isSome :=
  Std.TreeMap.contains_eq_isSome_getElem?

theorem mem_names_iff : name ∈ t.names ↔ t.contains name = true := Std.TreeMap.mem_keys

section Distinct

variable (hd : (fields.map Field.name).Nodup)
include hd

theorem contains_ofList_iff :
    (ofList fields).contains name = true ↔ ∃ f ∈ fields, f.name = name := by
  rw [contains_eq_isSome_get?, Option.isSome_iff_exists]
  simp only [get?_ofList_eq_some_iff hd]

theorem get?_ofList_eq_none_iff :
    (ofList fields).get? name = none ↔ ∀ f ∈ fields, f.name ≠ name := by
  rw [← Option.not_isSome_iff_eq_none]
  simp only [Option.isSome_iff_exists, get?_ofList_eq_some_iff hd, not_exists, not_and]

theorem names_ofList : (ofList fields).names.Perm (fields.map Field.name) := by
  refine (List.perm_ext_iff_of_nodup (Text.nodup_keys _) hd).mpr fun name => ?_
  rw [List.mem_map, ← contains_ofList_iff hd]
  exact mem_names_iff

theorem size_ofList : (ofList fields).size = fields.length :=
  calc (ofList fields).size
      = (ofList fields).names.length := Std.TreeMap.length_keys.symm
    _ = (fields.map Field.name).length := (names_ofList hd).length_eq
    _ = fields.length := List.length_map _

end Distinct

end FieldTable

theorem Registry.owner_of_bind {r : Registry σ} {typeName : String} {c : HostClass σ}
    (found : r.get? typeName = some c) {config : Option NodeView} {b : Binding σ}
    (h : (r.bind typeName config).value = .ok b) : b.owner = c := by
  simp only [bind, found, Traced.value_bind] at h
  cases hi : (c.instantiate config).value with
  | error e =>
    rw [hi] at h
    cases h
  | ok i =>
    rw [hi] at h
    exact congrArg Binding.owner (Except.ok.inj h).symm

namespace Binding

/-- The tables of a binding have all that a draft declares, and nothing else. -/
structure Lossless (b : Binding σ) (d : ClassDraft σ) : Prop where
  get? : ∀ name f, b.fields.get? name = some f ↔ f ∈ d.fields ∧ f.name = name
  absent : ∀ name, b.fields.get? name = none ↔ ∀ f ∈ d.fields, f.name ≠ name
  /-- No field has another one of its name in its place. -/
  unshadowed : ∀ f ∈ d.fields, b.fields.get? f.name = some f
  contains : ∀ name, b.fields.contains name = true ↔ ∃ f ∈ d.fields, f.name = name
  size : b.fields.size = d.fields.length
  ascending : b.fields.names.Pairwise Text.Precedes
  names : b.fields.names.Perm (d.fields.map Field.name)
  methods : b.methods = d.methods
  select : ∀ (h : Hierarchy) (name : String) (types : List CallType),
    Method.select h b.methods name types = Method.select h d.methods name types

theorem Sound.lossless {b : Binding σ} (hb : b.Sound) : b.Lossless b.owner.toClassDraft := by
  have hd := b.owner.fields_distinct
  obtain ⟨hfields, hmethods, -⟩ := hb
  constructor
  case methods => exact hmethods
  case select => exact fun _ _ _ => by rw [hmethods]
  case ascending => exact Text.pairwise_keys _
  all_goals rw [hfields]
  case get? => exact fun _ _ => FieldTable.get?_ofList_eq_some_iff hd
  case absent => exact fun _ => FieldTable.get?_ofList_eq_none_iff hd
  case unshadowed => exact fun f hf => (FieldTable.get?_ofList_eq_some_iff hd).mpr ⟨hf, rfl⟩
  case contains => exact fun _ => FieldTable.contains_ofList_iff hd
  case size => exact FieldTable.size_ofList hd
  case names => exact FieldTable.names_ofList hd

end Binding

/-- A binding of a class that a draft made has in its tables what the draft declares. -/
theorem Registry.bind_lossless {d : ClassDraft σ} {c : HostClass σ} (made : d.build = .ok c)
    {r : Registry σ} {typeName : String} (found : r.get? typeName = some c)
    {config : Option NodeView} {b : Binding σ}
    (bound : (r.bind typeName config).value = .ok b) : b.Lossless d := by
  have howner : b.owner.toClassDraft = d := by
    rw [owner_of_bind found bound, ClassDraft.toClassDraft_of_build made]
  rw [← howner]
  exact (sound_of_bind bound).lossless

namespace Album

def year : Field Unit := { name := "year", read := fun _ => { answer := .ok (.long 1969) } }

def artist : Field Unit := { name := "artist", read := fun _ => { answer := .ok .null } }

/-- A class whose fields are not declared in the order of their names. -/
def draft : ClassDraft Unit where
  name := "demo.Album"
  native := "Album"
  constructors := [.plain { outcome := .returned () }]
  fields := [year, artist]
  methods := [.typed0 "year" fun s => ({ outcome := .returned .null }, s)]

def hostClass : HostClass Unit :=
  { draft with
    constructors_distinct := by decide
    fields_distinct := by decide
    methods_distinct := by decide }

def registry : Registry Unit := Registry.empty.insert hostClass

def binding : Binding Unit := .ofInstance hostClass { native := "Album", state := () }

end Album

/-- Both fields are found, the first one as well, and a method of its name does no harm. -/
theorem album_bind_lossless :
    Album.draft.build = .ok Album.hostClass ∧
      Album.registry.get? "demo.Album" = some Album.hostClass ∧
      (Album.registry.bind "demo.Album" none).value = .ok Album.binding ∧
      Album.binding.fields.get? "year" = some Album.year ∧
      Album.binding.fields.size = 2 ∧ Album.binding.fields.names.Perm ["year", "artist"] := by
  have made : Album.draft.build = .ok Album.hostClass := rfl
  have found : Album.registry.get? "demo.Album" = some Album.hostClass :=
    Std.TreeMap.getElem?_insert_self
  have bound : (Album.registry.bind "demo.Album" none).value = .ok Album.binding := by
    rw [Registry.bind, found]
    rfl
  have h := Registry.bind_lossless made found bound
  exact ⟨made, found, bound, h.unshadowed Album.year List.mem_cons_self, h.size, h.names⟩

end HostCall
