import HostCall.Call.Error
import HostCall.Proofs.Host.Drafts

/-!
# Signatures that tell overloads apart

A list of types is written as the names of the types between commas. Where a class has a name that
is no built-in type's, is not empty and holds no comma, the list is read off that text again: the
commas part it into the names, and each name is one type's. So two methods of one name differ in
their signatures, and two calls that found no method differ in their messages.
-/

namespace HostCall

namespace CallType

variable {s t : CallType} {ts us : List CallType}

/-- The types that are no classes. -/
def builtIn : List CallType :=
  [.boolean, .int, .long, .double, .string, .list, .node, .null, .object]

/-- A type whose name can be read in a list of names: that of a class is not empty, holds no comma
and is no built-in type's. -/
def Legible : CallType → Prop
  | host className =>
    className ≠ "" ∧ ',' ∉ className.toList ∧ className ∉ builtIn.map name
  | _ => True

instance : DecidablePred Legible
  | host className =>
    inferInstanceAs (Decidable
      (className ≠ "" ∧ ',' ∉ className.toList ∧ className ∉ builtIn.map name))
  | .boolean | .int | .long | .double | .string | .list | .node | .null | .object =>
    .isTrue trivial

theorem mem_builtIn_or_host (t : CallType) :
    t ∈ builtIn ∨ ∃ className, t = host className := by
  cases t with
  | host className => exact .inr ⟨className, rfl⟩
  | _ => exact .inl (by decide)

theorem Legible.name_ne (ht : t.Legible) : t.name ≠ "" := by
  rcases mem_builtIn_or_host t with hbuiltIn | ⟨className, rfl⟩
  · have hall : ∀ t ∈ builtIn, t.name ≠ "" := by decide
    exact hall t hbuiltIn
  · exact ht.1

theorem Legible.comma_notMem (ht : t.Legible) : ',' ∉ t.name.toList := by
  rcases mem_builtIn_or_host t with hbuiltIn | ⟨className, rfl⟩
  · have hall : ∀ t ∈ builtIn, ',' ∉ t.name.toList := by decide
    exact hall t hbuiltIn
  · exact ht.2.1

theorem Legible.eq_of_name_eq (hs : s.Legible) (ht : t.Legible) (h : s.name = t.name) : s = t := by
  have hdistinct : (builtIn.map name).Nodup := by decide
  rcases mem_builtIn_or_host s with hs' | ⟨className, rfl⟩ <;>
    rcases mem_builtIn_or_host t with ht' | ⟨className', rfl⟩
  · exact List.inj_on_of_nodup_map hdistinct hs' ht' h
  · have hmem : className' ∈ builtIn.map name := List.mem_map.mpr ⟨s, hs', h⟩
    exact absurd hmem ht.2.2
  · have hmem : className ∈ builtIn.map name := List.mem_map.mpr ⟨t, ht', h.symm⟩
    exact absurd hmem hs.2.2
  · exact congrArg host h

theorem eq_of_map_name_eq (hts : ∀ t ∈ ts, t.Legible) (hus : ∀ u ∈ us, u.Legible)
    (h : ts.map name = us.map name) : ts = us := by
  induction ts generalizing us with
  | nil => exact (List.map_eq_nil_iff.mp h.symm).symm
  | cons t ts ih =>
    cases us with
    | nil => cases h
    | cons u us =>
      rw [List.forall_mem_cons] at hts hus
      rw [List.map_cons, List.map_cons, List.cons.injEq] at h
      have hfirst : t = u := hts.1.eq_of_name_eq hus.1 h.1
      have hrest : ts = us := ih hts.2 hus.2 h.2
      rw [hfirst, hrest]

theorem splitOn_joinNames (hts : ∀ t ∈ ts, t.Legible) (hne : ts ≠ []) :
    (joinNames ts).toList.splitOn ',' = (ts.map name).map String.toList := by
  rw [joinNames, String.toList_intercalate]
  apply List.splitOn_intercalate
  · intro cs hcs
    rw [List.map_map, List.mem_map] at hcs
    obtain ⟨t, ht, hname⟩ := hcs
    rw [← hname]
    exact (hts t ht).comma_notMem
  · simp [hne]

/-- Only the empty list is written as the empty text, since no type has an empty name. -/
theorem joinNames_ne_empty (hts : ∀ t ∈ ts, t.Legible) (hne : ts ≠ []) : joinNames ts ≠ "" := by
  intro h
  have hsplit := splitOn_joinNames hts hne
  rw [h, String.toList_empty, List.splitOn_nil] at hsplit
  cases ts with
  | nil => exact hne rfl
  | cons t ts =>
    rw [List.map_cons, List.map_cons, List.cons.injEq] at hsplit
    have hempty : t.name = "" := String.toList_eq_nil_iff.mp hsplit.1.symm
    exact (hts t List.mem_cons_self).name_ne hempty

theorem joinNames_inj (hts : ∀ t ∈ ts, t.Legible) (hus : ∀ u ∈ us, u.Legible) :
    joinNames ts = joinNames us ↔ ts = us := by
  constructor
  · intro h
    by_cases hts' : ts = []
    · by_cases hus' : us = []
      · rw [hts', hus']
      · -- the empty text is no nonempty list's
        rw [hts'] at h
        exact absurd h.symm (joinNames_ne_empty hus hus')
    · by_cases hus' : us = []
      · rw [hus'] at h
        exact absurd h (joinNames_ne_empty hts hts')
      · have hparts : (ts.map name).map String.toList = (us.map name).map String.toList := by
          rw [← splitOn_joinNames hts hts', ← splitOn_joinNames hus hus', h]
        have hnames : ts.map name = us.map name :=
          List.map_injective_iff.mpr (fun _ _ => String.toList_inj.mp) hparts
        exact eq_of_map_name_eq hts hus hnames
  · intro h
    rw [h]

/-- A comma in the name of a class can be taken for one between two names. -/
example : joinNames [.host "a,b"] = joinNames [.host "a", .host "b"] := by decide

theorem memberSignature_inj (hts : ∀ t ∈ ts, t.Legible) (hus : ∀ u ∈ us, u.Legible)
    {member : String} : memberSignature member ts = memberSignature member us ↔ ts = us := by
  rw [memberSignature, memberSignature, String.append_left_inj, String.append_right_inj,
    joinNames_inj hts hus]

theorem signature_inj (hts : ∀ t ∈ ts, t.Legible) (hus : ∀ u ∈ us, u.Legible)
    {className member : String} :
    signature className member ts = signature className member us ↔ ts = us := by
  rw [signature, signature, String.append_right_inj, memberSignature_inj hts hus]

end CallType

variable {σ : Type}

/-- The types that all methods of a class declare are legible. -/
def HostClass.Legible (c : HostClass σ) : Prop := ∀ m ∈ c.methods, ∀ t ∈ m.params, t.Legible

/-- Methods of a class that have one name differ in their parameters, and so in their signatures. -/
theorem ClassDraft.pairwise_signature_ne {d : ClassDraft σ} {c : HostClass σ}
    (hc : d.build = .ok c) (hl : c.Legible) :
    c.methods.Pairwise fun m n => m.name = n.name →
      m.signature ≠ n.signature ∧
        CallType.signature c.name m.name m.params ≠ CallType.signature c.name n.name n.params := by
  have hdistinct : (c.methods.map fun m => (m.name, m.params)).Nodup := by
    rw [toClassDraft_of_build hc]
    exact (unambiguous_of_build hc).methods
  rw [List.Nodup, List.pairwise_map] at hdistinct
  refine hdistinct.imp_of_mem ?_
  intro m n hm hn hne hname
  have hparams : m.params ≠ n.params := fun h => hne (Prod.ext hname h)
  rw [Method.signature, Method.signature, hname]
  exact ⟨mt (CallType.memberSignature_inj (hl m hm) (hl n hn)).mp hparams,
    mt (CallType.signature_inj (hl m hm) (hl n hn)).mp hparams⟩

theorem CallError.message_noSuchMethod_inj {ts us : List CallType} (hts : ∀ t ∈ ts, t.Legible)
    (hus : ∀ u ∈ us, u.Legible) {name className : String} :
    (noSuchMethod name ts className).message = (noSuchMethod name us className).message ↔
      ts = us := by
  have hmessage (types : List CallType) : (noSuchMethod name types className).message =
      "No method " ++ CallType.memberSignature name types ++ " found in class " ++ className := rfl
  rw [hmessage, hmessage, String.append_left_inj, String.append_left_inj, String.append_right_inj,
    CallType.memberSignature_inj hts hus]

namespace CallType

/-- What the texts that are written for lists of legible types tell. -/
structure TellsOverloads (σ : Type) : Prop where
  lists : ∀ ts us, (∀ t ∈ ts, t.Legible) → (∀ u ∈ us, u.Legible) →
    (joinNames ts = joinNames us ↔ ts = us)
  /-- Two methods of one name have two signatures, with the name of the class and without it. -/
  methods : ∀ (d : ClassDraft σ) (c : HostClass σ), d.build = .ok c → c.Legible →
    c.methods.Pairwise fun m n => m.name = n.name →
      m.signature ≠ n.signature ∧
        signature c.name m.name m.params ≠ signature c.name n.name n.params
  /-- Calls of one name that found no method of one class tell the types of their arguments. -/
  messages : ∀ name className ts us, (∀ t ∈ ts, t.Legible) → (∀ u ∈ us, u.Legible) →
    (CallError.noSuchMethod name ts className).message =
      (CallError.noSuchMethod name us className).message → ts = us

theorem tells_overloads : TellsOverloads σ where
  lists _ _ := joinNames_inj
  methods _ _ := ClassDraft.pairwise_signature_ne
  messages _ _ _ _ hts hus := (CallError.message_noSuchMethod_inj hts hus).mp

end CallType

namespace Stencil

/-- Overloads of one name. -/
def draw (params : List CallType) : Method Unit :=
  { name := "draw", params, body := fun s _ => ({ outcome := .returned .null }, s) }

def draft : ClassDraft Unit :=
  { name := "demo.Stencil", native := "Stencil"
    methods := [draw [], draw [.long], draw [.host "demo.Point"], draw [.host "demo.Point", .long]] }

end Stencil

/-- Four overloads have four signatures. -/
theorem stencil_tells_overloads :
    ∃ c, Stencil.draft.build = .ok c ∧ c.Legible ∧
      c.methods.map Method.signature =
        ["draw()", "draw(long)", "draw(demo.Point)", "draw(demo.Point,long)"] ∧
      c.methods.Pairwise fun m n => m.name = n.name → m.signature ≠ n.signature ∧
        CallType.signature c.name m.name m.params ≠ CallType.signature c.name n.name n.params := by
  have hd : Stencil.draft.Unambiguous := ⟨by decide, by decide, by decide⟩
  obtain ⟨c, hc⟩ := ClassDraft.exists_build_iff.mpr hd
  have hmethods : c.methods = Stencil.draft.methods :=
    congrArg ClassDraft.methods (ClassDraft.toClassDraft_of_build hc)
  have hl : c.Legible := by
    rw [HostClass.Legible, hmethods]
    decide
  exact ⟨c, hc, hl, by rw [hmethods]; decide, CallType.tells_overloads.methods _ c hc hl⟩

end HostCall
