import HostCall.Call.Dispatch
import HostCall.Proofs.Trace

/-!
# Sound bindings

A binding is sound when its tables are those of its class and its instance is of the native type
of the class. In a sound binding a name finds the field that the class declares, and members run
on the instance without meeting a check at the boundary to host code.
-/

namespace HostCall

variable {σ : Type}

namespace FieldTable

private theorem getElem?_foldl_insert {fields : List (Field σ)}
    (hd : (fields.map Field.name).Nodup) (entries : Std.TreeMap String (Field σ))
    (name : String) (f : Field σ) :
    (fields.foldl (fun entries f => entries.insert f.name f) entries)[name]? = some f ↔
      (f ∈ fields ∧ f.name = name) ∨
        (entries[name]? = some f ∧ ∀ g ∈ fields, g.name ≠ name) := by
  induction fields generalizing entries with
  | nil => simp
  | cons g fields ih =>
    rw [List.map_cons, List.nodup_cons] at hd
    have hg : ∀ k ∈ fields, k.name ≠ g.name := fun k hk e =>
      hd.1 (List.mem_map.mpr ⟨k, hk, e⟩)
    rw [List.foldl_cons, ih hd.2, Std.TreeMap.getElem?_insert]
    -- an insertion is overwritten only by a later field of the same name, and there is none
    by_cases hn : g.name = name
    · subst hn
      simp only [Std.compare_self, ↓reduceIte, Option.some.injEq, List.mem_cons]
      constructor
      · intro hx
        rcases hx with ⟨hf, he⟩ | ⟨rfl, -⟩
        · exact absurd he (hg f hf)
        · exact .inl ⟨.inl rfl, rfl⟩
      · intro hx
        rcases hx with ⟨rfl | hf, he⟩ | ⟨-, hne⟩
        · exact .inr ⟨rfl, hg⟩
        · exact absurd he (hg f hf)
        · exact absurd rfl (hne g (.inl rfl))
    · have hc : ¬ compare g.name name = .eq := fun e => hn (Std.LawfulEqCmp.eq_of_compare e)
      simp only [hc, ↓reduceIte, List.mem_cons, forall_eq_or_imp, ne_eq, hn, not_false_eq_true,
        true_and]
      constructor
      · intro hx
        rcases hx with ⟨hf, he⟩ | h
        · exact .inl ⟨.inr hf, he⟩
        · exact .inr h
      · intro hx
        rcases hx with ⟨rfl | hf, he⟩ | h
        · exact absurd he hn
        · exact .inl ⟨hf, he⟩
        · exact .inr h

/-- A table of fields with distinct names finds each field by its name, and nothing else. -/
theorem get?_ofList_eq_some_iff {fields : List (Field σ)} (hd : (fields.map Field.name).Nodup)
    {name : String} {f : Field σ} :
    (ofList fields).get? name = some f ↔ f ∈ fields ∧ f.name = name := by
  rw [ofList, get?, getElem?_foldl_insert hd]
  simp

end FieldTable

namespace HostClass

theorem readField_of_native (c : HostClass σ) {i : Instance σ} (hi : i.native = c.native)
    (f : Field σ) :
    (c.readField f i).value = (f.read i.state).contain ∧
      (c.readField f i).seen = (f.read i.state).events := by
  rw [readField, if_pos hi]
  simp only [Traced.value_bind, Traced.seen_bind, Traced.value_pure, Traced.seen_pure,
    Traced.seen_events, List.append_nil, and_self]

theorem call_of_native (c : HostClass σ) {i : Instance σ} (hi : i.native = c.native)
    {m : Method σ} {args : ArgumentList} (ha : args.length = m.arity) :
    (c.call m i args).value =
        ((m.body i.state args).1.outcome.contain, { i with state := (m.body i.state args).2 }) ∧
      (c.call m i args).seen = (m.body i.state args).1.events := by
  rw [call, if_pos ha, if_pos hi]
  simp only [Traced.value_bind, Traced.seen_bind, Traced.value_pure, Traced.seen_pure,
    Traced.seen_events, List.append_nil, and_self]

end HostClass

namespace Binding

/-- The tables are those of the class, and the instance is of its native type. -/
structure Sound (b : Binding σ) : Prop where
  fields_eq : b.fields = .ofList b.owner.fields
  methods_eq : b.methods = b.owner.methods
  native_eq : b.receiver.native = b.owner.native

/-- The binding with another state of its instance. -/
def withState (b : Binding σ) (s : σ) : Binding σ :=
  { b with receiver := { b.receiver with state := s } }

@[simp] theorem withState_state (b : Binding σ) (s : σ) :
    (b.withState s).receiver.state = s := rfl

@[simp] theorem withState_self (b : Binding σ) : b.withState b.receiver.state = b := rfl

@[simp] theorem withState_withState (b : Binding σ) (s t : σ) :
    (b.withState s).withState t = b.withState t := rfl

theorem Sound.withState {b : Binding σ} (hb : b.Sound) (s : σ) : (b.withState s).Sound :=
  ⟨hb.fields_eq, hb.methods_eq, hb.native_eq⟩

/-- What a field answers to a call. -/
def fieldReply (b : Binding σ) (f : Field σ) : Except CallError Value :=
  (f.read b.receiver.state).contain.mapError (.invocation (b.owner.name ++ "." ++ f.name))

/-- What a method answers to a call. -/
def methodReply (b : Binding σ) (m : Method σ) (values : List Value) : Except CallError Value :=
  (m.body b.receiver.state values).1.outcome.contain.mapError
    (.invocation (CallType.signature b.owner.name m.name m.params))

variable {b : Binding σ}

theorem readField_of_sound (hb : b.Sound) (f : Field σ) :
    (b.readField f).value = b.fieldReply f ∧
      (b.readField f).seen = (f.read b.receiver.state).events := by
  obtain ⟨hvalue, hseen⟩ := b.owner.readField_of_native hb.native_eq f
  rw [readField]
  simp only [Traced.value_bind, Traced.seen_bind, Traced.value_pure, Traced.seen_pure,
    Traced.seen_log, hvalue, hseen, List.nil_append, List.append_nil, and_true]
  rfl

theorem callMethod_of_sound (hb : b.Sound) {m : Method σ} {args : Arguments}
    (ha : m.arity = args.size) (fit : Fit) :
    (b.callMethod m fit args).value =
        (b.methodReply m args.values, b.withState (m.body b.receiver.state args.values).2) ∧
      (b.callMethod m fit args).seen = (m.body b.receiver.state args.values).1.events := by
  obtain ⟨hvalue, hseen⟩ := b.owner.call_of_native hb.native_eq
    (show args.values.length = m.arity from ha.symm)
  rw [callMethod, methodReply]
  simp only [Traced.value_bind, Traced.seen_bind, hvalue, hseen]
  cases (m.body b.receiver.state args.values).1.outcome.contain with
  | ok v =>
    simp only [Traced.value_bind, Traced.seen_bind, Traced.value_pure, Traced.seen_pure,
      Traced.seen_log, List.append_nil, and_true]
    rfl
  | error e =>
    simp only [Traced.value_pure, Traced.seen_pure, List.append_nil, and_true]
    rfl

end Binding

end HostCall
