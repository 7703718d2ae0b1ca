import HostCall.Component.Options
import HostCall.Proofs.Toml.Pairs

/-!
# Options survive their document

Options are written unless their argument bound is above all integers of 64 bits, and the document
holds them: reading it back gives the very options, or tells that their close method is blank. What
is read from any document is valid and can be written again.
-/

namespace HostCall.Options

open Toml (Lists Reads)

variable {o : Options} {text : String}

/-- The greatest argument bound that can be written. -/
def greatestBound : Nat := 0x7FFFFFFFFFFFFFFF

section Writing

theorem natural?_eq_none_iff {n : Nat} : Toml.Writer.natural? n = none ↔ greatestBound < n := by
  have hmax : Int64.maxValue.toInt = 0x7FFFFFFFFFFFFFFF := rfl
  rw [Toml.Writer.natural?, hmax, greatestBound]
  split
  · simp only [reduceCtorEq, false_iff]
    omega
  · simp only [true_iff]
    omega

/-- The entries of the document of options; a missing bound has none. -/
def entries (o : Options) : Toml.Entries :=
  (o.maxArgs.map fun n => ("max_args", .integer (Int64.ofInt n))).toList ++
    [("close_method", .text o.closeMethod), ("close_on_drop", .boolean o.closeOnDrop),
      ("field_access", .boolean o.fieldAccess)]

theorem maxArgsLines?_eq_none_iff :
    maxArgsLines? o.maxArgs = none ↔ ∃ n, o.maxArgs = some n ∧ greatestBound < n := by
  cases o.maxArgs with
  | none => simp [maxArgsLines?]
  | some n => simp [maxArgsLines?, natural?_eq_none_iff]

theorem toToml_eq_error_iff (e : OptionsError) :
    o.toToml = .error e ↔ e = .unwritable ∧ ∃ n, o.maxArgs = some n ∧ greatestBound < n := by
  rw [← maxArgsLines?_eq_none_iff, toToml]
  cases maxArgsLines? o.maxArgs with
  | none => simp [eq_comm]
  | some first => simp

/-- The line of the argument bound, if there is one, lists its entry in front of others. -/
theorem lists_maxArgsLines {bound : Option Nat} {first rest : String} {entries : Toml.Entries}
    (h : maxArgsLines? bound = some first) (hrest : Lists rest entries) :
    Lists (first ++ rest)
      ((bound.map fun n => ("max_args", .integer (Int64.ofInt n))).toList ++ entries) := by
  cases bound with
  | none =>
    obtain rfl := Option.some.inj h
    rwa [String.empty_append]
  | some n =>
    obtain ⟨value, hvalue, rfl⟩ := Option.map_eq_some_iff.mp h
    exact .cons (by decide) (Toml.reads_natural hvalue) hrest

theorem lists_of_toToml (h : o.toToml = .ok text) : Lists text o.entries := by
  rw [toToml] at h
  split at h
  · cases h
  · rename_i first hfirst
    obtain rfl := Except.ok.inj h
    have hrest := Lists.cons (by decide : Toml.Bare "close_method") (Toml.reads_text o.closeMethod)
      (.cons (by decide : Toml.Bare "close_on_drop") (Toml.reads_boolean o.closeOnDrop)
        (.cons (by decide : Toml.Bare "field_access") (Toml.reads_boolean o.fieldAccess) .nil))
    have hlines := lists_maxArgsLines hfirst hrest
    rwa [String.append_empty, ← String.append_assoc, ← String.append_assoc] at hlines

theorem nodup_entries (o : Options) : (o.entries.map Prod.fst).Nodup := by
  cases hbound : o.maxArgs <;> simp [entries, hbound]

end Writing

section Reading

variable {n : Nat}

theorem natural?_ofInt (h : n ≤ greatestBound) :
    natural? (.integer (Int64.ofInt n)) = some n := by
  have hint : (Int64.ofInt n).toInt = n := by
    rw [greatestBound] at h
    exact Int64.toInt_ofInt_of_le (by omega) (by omega)
  rw [natural?, hint, if_pos (Int.natCast_nonneg n), Int.toNat_natCast]

theorem le_of_natural? {item : Toml.Item} (h : natural? item = some n) : n ≤ greatestBound := by
  cases item with
  | integer k =>
    have hlt := k.toInt_lt
    rw [natural?] at h
    split at h
    · obtain rfl := Option.some.inj h
      rw [greatestBound]
      omega
    · cases h
  | _ => cases h

theorem ofEntries?_entries (h : ∀ n, o.maxArgs = some n → n ≤ greatestBound) :
    ofEntries? o.entries = some o := by
  obtain ⟨bound, name, onDrop, access⟩ := o
  cases bound with
  | none => rfl
  | some n =>
    have hread : ofEntries? (entries ⟨some n, name, onDrop, access⟩) =
        ((natural? (.integer (Int64.ofInt n))).map some).bind fun bound =>
          some ⟨bound, name, onDrop, access⟩ := rfl
    rw [hread, natural?_ofInt (h n rfl)]
    rfl

theorem le_of_ofEntries? {entries : Toml.Entries} (h : ofEntries? entries = some o)
    (hn : o.maxArgs = some n) : n ≤ greatestBound := by
  simp only [ofEntries?, Option.bind_eq_bind, Option.bind_eq_some_iff] at h
  obtain ⟨bound, hbound, _, _, _, _, _, _, ho⟩ := h
  obtain rfl := Option.some.inj ho
  simp only at hn
  subst hn
  rw [entryOr] at hbound
  split at hbound
  · cases hbound
  · obtain ⟨k, hk, hsome⟩ := Option.map_eq_some_iff.mp hbound
    obtain rfl := Option.some.inj hsome
    exact le_of_natural? hk

/-- Reading a document ends with the check of the options that it holds. -/
theorem ofToml_eq (h : (Toml.parse? text).bind ofEntries? = some o) :
    ofToml text = o.validate.map fun _ => o := by
  rw [ofToml, h]
  rfl

theorem ofToml_eq_ok_iff :
    ofToml text = .ok o ↔
      (Toml.parse? text).bind ofEntries? = some o ∧ o.validate = .ok () := by
  cases hread : (Toml.parse? text).bind ofEntries? with
  | none =>
    rw [ofToml, hread]
    simp
  | some options =>
    rw [ofToml_eq hread]
    constructor
    · intro h
      cases hvalid : options.validate with
      | error e =>
        rw [hvalid] at h
        cases h
      | ok =>
        rw [hvalid] at h
        obtain rfl := Except.ok.inj h
        exact ⟨rfl, hvalid⟩
    · rintro ⟨h, hvalid⟩
      obtain rfl := Option.some.inj h
      rw [hvalid]
      rfl

/-- What is written holds the options, whether they are valid or not. -/
theorem read_of_toToml (h : o.toToml = .ok text) :
    (Toml.parse? text).bind ofEntries? = some o := by
  have hbound : ∀ n, o.maxArgs = some n → n ≤ greatestBound := by
    intro n hn
    apply Nat.le_of_not_lt
    intro hlt
    have herror := (toToml_eq_error_iff .unwritable).mpr ⟨rfl, n, hn, hlt⟩
    rw [h] at herror
    cases herror
  rw [(lists_of_toToml h).parse?_eq (nodup_entries o)]
  exact ofEntries?_entries hbound

end Reading

/-- What is kept of options when they are written as a document and read back. -/
structure SurvivesToml (o : Options) : Prop where
  /-- Writing fails only for an argument bound above all integers of 64 bits. -/
  refused : ∀ e, o.toToml = .error e ↔
    e = .unwritable ∧ ∃ n, o.maxArgs = some n ∧ greatestBound < n
  restored : ∀ text, o.toToml = .ok text → o.validate = .ok () → ofToml text = .ok o
  blank : ∀ text, o.toToml = .ok text → Text.isBlank o.closeMethod = true →
    ofToml text = .error (.invalid "close_method must not be empty")
  /-- Options that any document gives are valid, and they survive being written again. -/
  parsed : ∀ text, ofToml text = .ok o →
    o.validate = .ok () ∧ ∃ written, o.toToml = .ok written ∧ ofToml written = .ok o

theorem survivesToml (o : Options) : o.SurvivesToml where
  refused := toToml_eq_error_iff
  restored _ h hvalid := ofToml_eq_ok_iff.mpr ⟨read_of_toToml h, hvalid⟩
  blank _ h hblank := by
    rw [ofToml_eq (read_of_toToml h), validate, isValid, hblank]
    rfl
  parsed text h := by
    obtain ⟨hread, hvalid⟩ := ofToml_eq_ok_iff.mp h
    obtain ⟨entries, -, hentries⟩ := Option.bind_eq_some_iff.mp hread
    refine ⟨hvalid, ?_⟩
    cases hwritten : o.toToml with
    | error e =>
      obtain ⟨-, n, hn, hlt⟩ := (toToml_eq_error_iff e).mp hwritten
      exact absurd (le_of_ofEntries? hentries hn) (Nat.not_le_of_lt hlt)
    | ok written =>
      exact ⟨written, rfl, ofToml_eq_ok_iff.mpr ⟨read_of_toToml hwritten, hvalid⟩⟩

end HostCall.Options
