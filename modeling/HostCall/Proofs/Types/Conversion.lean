import HostCall.Types.Hierarchy

/-!
# Accepted types and conversions

A parameter accepts arguments by their types, and the code behind it converts the arguments it is
given. The two nearly agree: an argument that is accepted is converted, except for null where a
text, a list or a graph is wanted, and for data that are no objects where an object is wanted.
-/

namespace HostCall

namespace Hierarchy

/-- A type accepts itself, and object accepts all; null is accepted by what is not primitive, and
a class by its superclasses. -/
theorem accepts_iff (h : Hierarchy) (declared actual : CallType) :
    h.accepts declared actual = true ↔
      declared = actual ∨ declared = .object ∨
        (actual = .null ∧ declared.isPrimitive = false) ∨
        ∃ want got, declared = .host want ∧ actual = .host got ∧
          h.isSubclass got want = true := by
  unfold accepts
  cases declared with
  | object => simp
  | _ => cases actual <;> simp [CallType.isPrimitive]

/-- No argument is of the integers of 32 bits, so a parameter of them accepts none. -/
theorem not_accepts_int (h : Hierarchy) (v : Value) : h.accepts .int v.callType = false := by
  rw [← Bool.not_eq_true, accepts_iff]
  cases v <;> simp [Value.callType, CallType.isPrimitive]

end Hierarchy

namespace BaseType

/-- The arguments that a parameter of a base type accepts, whatever classes there are. -/
def Admits : BaseType → Value → Prop
  | bool, v => ∃ b, v = .bool b
  | int, _ => False
  | long, v => (∃ n, v = .int n) ∨ ∃ n, v = .long n
  | double, v => ∃ x, v = .double x
  | text, v => v = .null ∨ ∃ s, v = .text s
  | list, v => v = .null ∨ ∃ items, v = .list items
  | graph, v => v = .null ∨ ∃ g, v = .node g
  | value, _ | object, _ => True

theorem accepts_declared_iff (h : Hierarchy) (base : BaseType) (v : Value) :
    h.accepts base.declared v.callType = true ↔ base.Admits v := by
  rw [h.accepts_iff]
  cases base with
  | value => simp [declared, Admits]
  | object => simp [declared, Admits]
  | _ => cases v <;> simp [declared, Admits, Value.callType, CallType.isPrimitive]

end BaseType

namespace HostType

def base : HostType → BaseType
  | plain base | optional base => base

/-- The arguments that a parameter of a host type accepts and its conversion refuses. -/
def Refuses : HostType → Value → Prop
  | plain .text, v | plain .list, v | plain .graph, v => v = .null
  | plain .object, v => ∀ o, v ≠ .object o
  | optional .object, v => v ≠ .null ∧ ∀ o, v ≠ .object o
  | _, _ => False

theorem not_refuses_null (base : BaseType) : ¬ (optional base).Refuses .null := by
  cases base <;> simp [Refuses]

/-- Null apart, an optional type refuses what its base type refuses. -/
theorem refuses_optional_iff {v : Value} (hv : v ≠ .null) (base : BaseType) :
    (optional base).Refuses v ↔ (plain base).Refuses v := by
  cases base <;> simp [Refuses, hv]

/-- Only references are refused. -/
theorem not_refuses_of_isPrimitive {type : HostType}
    (hp : type.base.declared.isPrimitive = true) (v : Value) : ¬ type.Refuses v := by
  cases type with
  | plain base | optional base =>
    rw [HostType.base] at hp
    cases base <;> simp_all [Refuses, BaseType.declared, CallType.isPrimitive]

private theorem map_eq_error_iff {α β ε : Type} {f : α → β} {x : Except ε α} {e : ε} :
    x.map f = .error e ↔ x = .error e := by
  cases x with
  | ok a => simp [Except.map]
  | error e' => simp [Except.map]

theorem ofValue_optional_eq_error_iff {v : Value} (hv : v ≠ .null) {base : BaseType}
    {cause : ConversionError} :
    (optional base).ofValue v = .error cause ↔ base.ofValue v = .error cause := by
  have he : (optional base).ofValue v = (base.ofValue v).map some := by
    cases v with
    | null => exact absurd rfl hv
    | _ => rfl
  exact (Iff.of_eq (congrArg (· = .error cause) he)).trans map_eq_error_iff

end HostType

namespace BaseType

theorem ofValue_eq_error_iff {base : BaseType} {v : Value} (hv : base.Admits v)
    {cause : ConversionError} :
    base.ofValue v = .error cause ↔
      (HostType.plain base).Refuses v ∧ cause = .mismatch base.expectedName v.kindName := by
  cases base with
  | bool =>
    obtain ⟨b, rfl⟩ := hv
    simp [ofValue, require, Value.bool?, HostType.Refuses]
  | int => exact absurd hv id
  | long =>
    rcases hv with ⟨n, rfl⟩ | ⟨n, rfl⟩
    · simp [ofValue, require, Value.integer?, HostType.Refuses]
    · simp [ofValue, require, Value.integer?, HostType.Refuses]
  | double =>
    obtain ⟨x, rfl⟩ := hv
    simp [ofValue, require, Value.double?, HostType.Refuses]
  | text =>
    rcases hv with rfl | ⟨s, rfl⟩
    · simp [ofValue, require, Value.text?, HostType.Refuses, eq_comm]
    · simp [ofValue, require, Value.text?, HostType.Refuses]
  | list =>
    rcases hv with rfl | ⟨items, rfl⟩
    · simp [ofValue, require, Value.list?, HostType.Refuses, eq_comm]
    · simp [ofValue, require, Value.list?, HostType.Refuses]
  | graph =>
    rcases hv with rfl | ⟨g, rfl⟩
    · simp [ofValue, require, Value.node?, HostType.Refuses, eq_comm]
    · simp [ofValue, require, Value.node?, HostType.Refuses]
  | value => simp [ofValue, HostType.Refuses]
  | object => cases v <;> simp [ofValue, require, Value.object?, HostType.Refuses, eq_comm]

end BaseType

namespace SlotType

theorem declared_eq (a : SlotType) : a.declared = a.type.base.declared := by
  obtain ⟨type, declared, declares⟩ := a
  cases type with
  | plain base => exact (Option.some.inj declares).symm
  | optional base =>
    rw [HostType.declared?] at declares
    split at declares
    · cases declares
    · exact (Option.some.inj declares).symm

/-- What a slot accepts is converted, unless it is refused; the complaint then names the type that
was expected and the kind of the argument. -/
theorem ofValue_eq_error_iff {h : Hierarchy} {a : SlotType} {v : Value}
    (ha : h.accepts a.declared v.callType = true) {cause : ConversionError} :
    a.type.ofValue v = .error cause ↔
      a.type.Refuses v ∧ cause = .mismatch a.type.base.expectedName v.kindName := by
  rw [a.declared_eq, BaseType.accepts_declared_iff] at ha
  cases ht : a.type with
  | plain base =>
    rw [ht] at ha
    exact BaseType.ofValue_eq_error_iff ha
  | optional base =>
    rw [ht] at ha
    by_cases hn : v = .null
    · subst hn
      simp [HostType.ofValue, Value.isNull, HostType.not_refuses_null]
    · rw [HostType.ofValue_optional_eq_error_iff hn, HostType.refuses_optional_iff hn]
      exact BaseType.ofValue_eq_error_iff ha

/-- A host object is accepted only where the type of all arguments is declared. -/
theorem declared_of_accepts_object {h : Hierarchy} {a : SlotType} {o : ObjectRef}
    (ha : h.accepts a.declared (Value.object o).callType = true) : a.declared = .object := by
  rw [a.declared_eq] at ha ⊢
  rw [BaseType.accepts_declared_iff] at ha
  cases hb : a.type.base with
  | value => rfl
  | object => rfl
  | _ => simp [hb, BaseType.Admits] at ha

end SlotType

end HostCall
