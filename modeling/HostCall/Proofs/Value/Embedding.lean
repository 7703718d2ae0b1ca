import HostCall.Proofs.Types.Conversion

/-!
# Data as values and back

A datum of a host type that becomes a value is read back as it was, unless it is a null that is
there as an optional value: that one comes back as absent. A value that a host type reads becomes
the same value again, except for integers, which come back in the width of the type. A reading is
out of range only where an integer of 64 bits is to fit into 32.
-/

namespace HostCall

namespace Value

variable {v : Value}

theorem bool?_eq_some_iff {b : Bool} : v.bool? = some b ↔ v = .bool b := by
  cases v <;> simp [bool?]

theorem integer?_eq_some_iff {n : Int64} :
    v.integer? = some n ↔ (∃ m : Int32, v = .int m ∧ m.toInt64 = n) ∨ v = .long n := by
  cases v <;> simp [integer?]

theorem double?_eq_some_iff {x : Binary64} : v.double? = some x ↔ v = .double x := by
  cases v <;> simp [double?]

theorem text?_eq_some_iff {s : String} : v.text? = some s ↔ v = .text s := by
  cases v <;> simp [text?]

theorem list?_eq_some_iff {items : List Value} : v.list? = some items ↔ v = .list items := by
  cases v <;> simp [list?]

theorem node?_eq_some_iff {g : Graph} : v.node? = some g ↔ v = .node g := by
  cases v <;> simp [node?]

theorem object?_eq_some_iff {o : ObjectRef} : v.object? = some o ↔ v = .object o := by
  cases v <;> simp [object?]

theorem isNull_iff : v.isNull = true ↔ v = .null := by
  cases v <;> simp [isNull]

end Value

namespace BaseType

variable {base : BaseType} {v : Value}

theorem require_eq_ok_iff {α : Type} {o : Option α} {a : α} :
    require base v o = .ok a ↔ o = some a := by
  cases o <;> simp [require]

theorem require_ne_outOfRange {α : Type} (o : Option α) (n : Int64) (target : String) :
    require base v o ≠ .error (.outOfRange n target) := by
  cases o <;> simp [require]

/-- The integers that fit into 32 bits. -/
def Fits (n : Int64) : Prop := -0x80000000 ≤ n.toInt ∧ n.toInt ≤ 0x7FFFFFFF

theorem toInt_toInt32 {n : Int64} (hn : Fits n) : n.toInt32.toInt = n.toInt := by
  obtain ⟨hlow, hhigh⟩ := hn
  rw [Int64.toInt_toInt32]
  exact Int.bmod_eq_of_le (by omega) (by omega)

theorem fits_of_toInt_eq {n : Int64} {m : Int32} (h : m.toInt = n.toInt) : Fits n := by
  have hlow := m.le_toInt
  have hhigh := m.toInt_lt
  rw [Fits]
  omega

theorem narrow?_of_fits {n : Int64} (hn : Fits n) : narrow? n = .ok n.toInt32 := if_pos hn

theorem narrow?_of_not_fits {n : Int64} (hn : ¬ Fits n) :
    narrow? n = .error (.outOfRange n "int") := if_neg hn

/-- Narrowing keeps the integer. -/
theorem narrow?_eq_ok_iff {n : Int64} {m : Int32} : narrow? n = .ok m ↔ m.toInt = n.toInt := by
  constructor
  · intro h
    by_cases hn : Fits n
    · rw [narrow?_of_fits hn] at h
      rw [← Except.ok.inj h, toInt_toInt32 hn]
    · rw [narrow?_of_not_fits hn] at h
      cases h
  · intro h
    have hn := fits_of_toInt_eq h
    rw [narrow?_of_fits hn, ← Int32.toInt_inj.mp ((toInt_toInt32 hn).trans h.symm)]

theorem narrow?_eq_error_iff {n : Int64} {e : ConversionError} :
    narrow? n = .error e ↔ ¬ Fits n ∧ e = .outOfRange n "int" := by
  by_cases hn : Fits n
  · simp [narrow?_of_fits hn, hn]
  · simp [narrow?_of_not_fits hn, hn, eq_comm]

theorem ofValue_toValue (base : BaseType) (x : base.Carrier) :
    base.ofValue (base.toValue x) = .ok x := by
  cases base <;> rfl

/-- A value that a base type read comes back as this value: an integer in the width of the type,
and all else as it was. -/
def Restores : BaseType → Value → Value → Prop
  | long, .int n, w => ∃ m, w = .long m ∧ m.toInt = n.toInt
  | int, .long n, w => ∃ m, w = .int m ∧ m.toInt = n.toInt
  | _, v, w => w = v

theorem restores {x : base.Carrier} (h : base.ofValue v = .ok x) :
    base.Restores v (base.toValue x) := by
  cases base with
  | value => cases h; cases v <;> rfl
  | int =>
    cases v with
    | int n => exact congrArg Value.int (Except.ok.inj h).symm
    | long n => exact ⟨x, rfl, narrow?_eq_ok_iff.mp h⟩
    | _ => cases h
  | long =>
    rcases Value.integer?_eq_some_iff.mp (require_eq_ok_iff.mp h) with ⟨m, rfl, hm⟩ | rfl
    · exact ⟨x, rfl, by rw [← hm, Int32.toInt_toInt64]⟩
    · rfl
  | bool => rw [Value.bool?_eq_some_iff.mp (require_eq_ok_iff.mp h)]; rfl
  | double => rw [Value.double?_eq_some_iff.mp (require_eq_ok_iff.mp h)]; rfl
  | text => rw [Value.text?_eq_some_iff.mp (require_eq_ok_iff.mp h)]; rfl
  | list => rw [Value.list?_eq_some_iff.mp (require_eq_ok_iff.mp h)]; rfl
  | graph => rw [Value.node?_eq_some_iff.mp (require_eq_ok_iff.mp h)]; rfl
  | object => rw [Value.object?_eq_some_iff.mp (require_eq_ok_iff.mp h)]; rfl

theorem restores_null (base : BaseType) : base.Restores .null .null := by
  cases base <;> rfl

/-- Only an integer of 64 bits that is to have 32 can be out of range. -/
theorem ofValue_eq_outOfRange_iff {n : Int64} {target : String} :
    base.ofValue v = .error (.outOfRange n target) ↔
      base = .int ∧ v = .long n ∧ ¬ Fits n ∧ target = "int" := by
  cases base with
  | value => simp [ofValue]
  | int =>
    cases v with
    | int m => simp [ofValue]
    | long m =>
      refine narrow?_eq_error_iff.trans ?_
      simp only [ConversionError.outOfRange.injEq, Value.long.injEq, true_and]
      constructor
      · rintro ⟨hm, rfl, rfl⟩
        exact ⟨rfl, hm, rfl⟩
      · rintro ⟨rfl, hm, rfl⟩
        exact ⟨hm, rfl, rfl⟩
    | _ => exact iff_of_false (require_ne_outOfRange none n target) (by simp)
  | _ => exact iff_of_false (require_ne_outOfRange _ n target) (by simp)

end BaseType

namespace HostType

variable {t : HostType} {base : BaseType} {v : Value}

/-- A datum that is there, but has the value of an absent one. -/
def Veiled : (t : HostType) → t.Carrier → Prop
  | optional .value, x => x = some Value.null
  | _, _ => False

theorem toValue_eq_null_iff {x : base.Carrier} :
    base.toValue x = .null ↔ (optional base).Veiled (some x) := by
  cases base with
  | value => exact (Option.some_inj (a := x)).symm
  | _ => simp [BaseType.toValue, Veiled]

theorem not_veiled_none (base : BaseType) : ¬ (optional base).Veiled none := by
  intro h
  cases base <;> cases h

theorem ofValue_optional (hv : v ≠ .null) :
    (optional base).ofValue v = (base.ofValue v).map some :=
  if_neg (mt Value.isNull_iff.mp hv)

theorem ofValue_toValue_some {x : base.Carrier} (hx : ¬ (optional base).Veiled (some x)) :
    (optional base).ofValue (base.toValue x) = .ok (some x) := by
  rw [ofValue_optional (mt toValue_eq_null_iff.mp hx), base.ofValue_toValue]
  rfl

/-- A veiled datum seems absent. -/
theorem ofValue_toValue_of_veiled {x : base.Carrier} (hx : (optional base).Veiled (some x)) :
    (optional base).ofValue (base.toValue x) = .ok none := by
  rw [toValue_eq_null_iff.mpr hx]
  rfl

/-- A datum is read back from its value if and only if it is not veiled. -/
theorem ofValue_toValue_eq_ok_iff (x : t.Carrier) :
    t.ofValue (t.toValue x) = .ok x ↔ ¬ t.Veiled x := by
  cases t with
  | plain base => exact iff_of_true (base.ofValue_toValue x) id
  | optional base =>
    cases x with
    | none => exact iff_of_true rfl (not_veiled_none base)
    | some x =>
      constructor
      · intro h hx
        cases (ofValue_toValue_of_veiled hx).symm.trans h
      · exact ofValue_toValue_some

theorem restores {x : t.Carrier} (h : t.ofValue v = .ok x) : t.base.Restores v (t.toValue x) := by
  cases t with
  | plain base => exact BaseType.restores h
  | optional base =>
    by_cases hv : v = .null
    · subst hv
      cases h
      exact base.restores_null
    · rw [ofValue_optional hv] at h
      cases hx : base.ofValue v with
      | error e =>
        rw [hx] at h
        cases h
      | ok y =>
        rw [hx] at h
        cases h
        exact BaseType.restores hx

theorem ofValue_eq_outOfRange_iff {n : Int64} {target : String} :
    t.ofValue v = .error (.outOfRange n target) ↔
      t.base = .int ∧ v = .long n ∧ ¬ BaseType.Fits n ∧ target = "int" := by
  cases t with
  | plain base => exact BaseType.ofValue_eq_outOfRange_iff
  | optional base =>
    by_cases hv : v = .null
    · subst hv
      exact iff_of_false (by rintro ⟨⟩) (by simp)
    · rw [ofValue_optional_eq_error_iff hv]
      exact BaseType.ofValue_eq_outOfRange_iff

/-- How data become values and values data: each way undoes the other, up to the width of integers
and to nulls that are there as optional values. -/
structure Inverse : Prop where
  reads_back : ∀ (t : HostType) (x : t.Carrier), t.ofValue (t.toValue x) = .ok x ↔ ¬ t.Veiled x
  seems_absent :
    (optional .value).ofValue ((optional .value).toValue (some Value.null)) = .ok none
  restores : ∀ (t : HostType) (v : Value) (x : t.Carrier), t.ofValue v = .ok x →
    t.base.Restores v (t.toValue x)
  outOfRange : ∀ (t : HostType) (v : Value) (n : Int64) (target : String),
    t.ofValue v = .error (.outOfRange n target) ↔
      t.base = .int ∧ v = .long n ∧ (n.toInt < -0x80000000 ∨ 0x7FFFFFFF < n.toInt) ∧
        target = "int"
  /-- A list of values is embedded item by item, as a list of any data is. -/
  lists : ∀ items : List Value,
    (plain .list).toValue items = Value.ofList BaseType.value.toValue items
  options : ∀ (base : BaseType) (x : Option base.Carrier),
    (optional base).toValue x = Value.ofOption base.toValue x

theorem inverse : Inverse where
  reads_back _ := ofValue_toValue_eq_ok_iff
  seems_absent :=
    ofValue_toValue_of_veiled (show (optional .value).Veiled (some Value.null) from rfl)
  restores _ _ _ := restores
  outOfRange t v n target := by
    have hfits : ¬ BaseType.Fits n ↔ n.toInt < -0x80000000 ∨ 0x7FFFFFFF < n.toInt := by
      rw [BaseType.Fits]
      omega
    rw [ofValue_eq_outOfRange_iff, hfits]
  lists items := congrArg Value.list (List.map_id items).symm
  options base x := by cases x <;> rfl

end HostType

end HostCall
