import Mathlib.Data.List.Forall2
import HostCall.Call.Selection

/-!
# Equality of values

Equality compares values of one kind: floating point numbers as numbers, objects by identity, lists
item by item, and all else by what it is. It is symmetric and transitive. A NaN equals nothing, so a
value equals itself exactly if no NaN occurs in it, be it alone or in a list at any depth. Where
references to one object are clones of each other, equal values are of one type, and calls with
equal arguments select the same method.
-/

namespace HostCall

namespace Binary64

variable {x y z : Binary64}

/-- Numbers are equal if neither is NaN and they have one pattern, or both are zeros. -/
theorem same_iff :
    x.same y = true ↔
      x.isNaN = false ∧ y.isNaN = false ∧ (x = y ∨ x.magnitude = 0 ∧ y.magnitude = 0) := by
  have hbits : x.bits = y.bits ↔ x = y := by
    cases x
    cases y
    simp
  simp [same, hbits, and_assoc]

theorem same_comm (x y : Binary64) : x.same y = y.same x := by
  rw [Bool.eq_iff_iff, same_iff, same_iff, eq_comm (a := x)]
  tauto

theorem same_trans (h : x.same y = true) (h' : y.same z = true) : x.same z = true := by
  rw [same_iff] at h h' ⊢
  obtain ⟨hx, hy, hxy⟩ := h
  obtain ⟨-, hz, hyz⟩ := h'
  refine ⟨hx, hz, ?_⟩
  rcases hxy with rfl | ⟨hx0, hy0⟩
  · exact hyz
  · rcases hyz with rfl | ⟨-, hz0⟩
    · exact .inr ⟨hx0, hy0⟩
    · exact .inr ⟨hx0, hz0⟩

theorem same_self_iff : x.same x = true ↔ x.isNaN = false := by
  rw [same_iff]
  simp

end Binary64

namespace Value

/-- What sort of thing a value is. Integers of the two widths are of two kinds, objects of one. -/
inductive Kind where
  | null
  | bool
  | int
  | long
  | double
  | text
  | list
  | node
  | object
deriving DecidableEq

def kind : Value → Kind
  | null => .null
  | bool _ => .bool
  | int _ => .int
  | long _ => .long
  | double _ => .double
  | text _ => .text
  | list _ => .list
  | node _ => .node
  | object _ => .object

/-- What equality asks of two values; of the items of lists it asks `R`. -/
inductive Equates (R : Value → Value → Prop) : Value → Value → Prop
  | null : Equates R .null .null
  | bool (b : Bool) : Equates R (.bool b) (.bool b)
  | int (n : Int32) : Equates R (.int n) (.int n)
  | long (n : Int64) : Equates R (.long n) (.long n)
  | double {x y : Binary64} (numbers : x.same y = true) : Equates R (.double x) (.double y)
  | text (s : String) : Equates R (.text s) (.text s)
  | list {vs ws : List Value} (items : List.Forall₂ R vs ws) : Equates R (.list vs) (.list ws)
  | node (g : Graph) : Equates R (.node g) (.node g)
  | object {a b : ObjectRef} (one : a.same b = true) : Equates R (.object a) (.object b)

/-- A value occurs in another one if it is that value or occurs in an item of that list. -/
inductive Occurs (u : Value) : Value → Prop
  | here : Occurs u u
  | item {v : Value} {items : List Value} (mem : v ∈ items) (inside : Occurs u v) :
      Occurs u (.list items)

variable {u v w : Value} {vs ws : List Value}

mutual

/-- What holds of every value of whose items it holds, if the value is a list, holds of all. -/
theorem induct {motive : Value → Prop}
    (step : ∀ v, (∀ items, v = .list items → ∀ u ∈ items, motive u) → motive v) : ∀ v, motive v
  | .list items => step _ fun _ h => Value.list.inj h ▸ inductAll step items
  | .null | .bool _ | .int _ | .long _ | .double _ | .text _ | .node _ | .object _ =>
    step _ fun _ h => by cases h

theorem inductAll {motive : Value → Prop}
    (step : ∀ v, (∀ items, v = .list items → ∀ u ∈ items, motive u) → motive v) :
    ∀ items : List Value, ∀ u ∈ items, motive u
  | [], _, h => absurd h List.not_mem_nil
  | v :: items, _, h => by
    rcases List.mem_cons.mp h with heq | h
    · exact heq ▸ induct step v
    · exact inductAll step items _ h

end

theorem sameAll_iff : sameAll vs ws = true ↔ List.Forall₂ (fun v w => v.same w = true) vs ws := by
  induction vs generalizing ws with
  | nil => cases ws <;> simp [sameAll]
  | cons v vs ih => cases ws <;> simp [sameAll, ih]

theorem same_iff : v.same w = true ↔ Equates (fun v w => v.same w = true) v w := by
  constructor
  · intro h
    unfold same at h
    split at h
    case h_1 => exact .null
    case h_5 => exact .double h
    case h_7 => exact .list (sameAll_iff.mp h)
    case h_9 => exact .object h
    case h_10 => cases h
    all_goals
      rw [eq_of_beq h]
      constructor
  · intro h
    cases h with
    | double numbers => rwa [same]
    | list items => rwa [same, sameAll_iff]
    | object one => rwa [same]
    | _ => simp [same]

theorem same_symm (h : v.same w = true) : w.same v = true := by
  induction v using induct generalizing w with
  | step v ih =>
    rw [same_iff] at h ⊢
    cases h with
    | null | bool | int | long | text | node => constructor
    | double numbers => exact .double (Binary64.same_comm .. ▸ numbers)
    | object one => exact .object (by rwa [ObjectRef.same, BEq.comm])
    | list items =>
      have hboth := (List.forall₂_and_left _ _).mpr ⟨ih _ rfl, items⟩
      exact .list (hboth.imp fun v w hvw => hvw.1 hvw.2).flip

theorem same_comm (v w : Value) : v.same w = w.same v :=
  Bool.eq_iff_iff.mpr ⟨same_symm, same_symm⟩

private theorem forall₂_trans {α : Type} {R : α → α → Prop} {xs ys zs : List α}
    (hR : ∀ x ∈ xs, ∀ y z, R x y → R y z → R x z) (h : List.Forall₂ R xs ys)
    (h' : List.Forall₂ R ys zs) : List.Forall₂ R xs zs := by
  induction h generalizing zs with
  | nil => exact h'
  | cons hxy _ ih =>
    cases h' with
    | cons hyz h' =>
      exact .cons (hR _ List.mem_cons_self _ _ hxy hyz)
        (ih (fun x hx => hR x (List.mem_cons_of_mem _ hx)) h')

theorem same_trans (h : u.same v = true) (h' : v.same w = true) : u.same w = true := by
  induction u using induct generalizing v w with
  | step u ih =>
    rw [same_iff] at h h' ⊢
    cases h with
    | null | bool | int | long | text | node => exact h'
    | double numbers =>
      cases h' with
      | double numbers' => exact .double (Binary64.same_trans numbers numbers')
    | object one =>
      cases h' with
      | object one' => exact .object (beq_iff_eq.mpr ((eq_of_beq one).trans (eq_of_beq one')))
    | list items =>
      cases h' with
      | list items' => exact .list (forall₂_trans (fun u hu _ _ => ih _ rfl u hu) items items')

/-- A value equals itself if and only if no NaN occurs in it. -/
theorem same_self_iff :
    v.same v = true ↔ ∀ x, Occurs (.double x) v → x.isNaN = false := by
  induction v using induct with
  | step v ih =>
    cases v with
    | list items =>
      rw [same, sameAll_iff, List.forall₂_same]
      constructor
      · intro h x hx
        cases hx with
        | item mem inside => exact (ih _ rfl _ mem).mp (h _ mem) x inside
      · intro h v hv
        exact (ih _ rfl v hv).mpr fun x hx => h x (.item hv hx)
    | object o => exact iff_of_true (beq_self_eq_true o.identity) fun x hx => by cases hx
    | double x =>
      rw [same, Binary64.same_self_iff]
      constructor
      · intro h y hy
        cases hy with
        | here => exact h
      · intro h
        exact h x .here
    | _ => exact iff_of_true (by simp [same]) fun x hx => by cases hx

theorem kind_eq_of_same (h : v.same w = true) : v.kind = w.kind := by
  rw [same_iff] at h
  cases h <;> rfl

/-! ## Equal arguments -/

/-- References to one object are clones of each other. -/
def Clones (refs : ObjectRef → Prop) : Prop :=
  ∀ a b, refs a → refs b → a.same b = true → a = b

/-- All objects that occur in a value are among some references. -/
def Over (v : Value) (refs : ObjectRef → Prop) : Prop := ∀ a, Occurs (.object a) v → refs a

section Clones

variable {refs : ObjectRef → Prop}

/-- Equal values are of one type: objects that are equal are clones, which name one type. -/
theorem callType_eq_of_same (hc : Clones refs) (hv : v.Over refs) (hw : w.Over refs)
    (h : v.same w = true) : v.callType = w.callType := by
  rw [same_iff] at h
  cases h with
  | object one => rw [hc _ _ (hv _ .here) (hw _ .here) one]
  | _ => rfl

theorem kindName_eq_of_same (hc : Clones refs) (hv : v.Over refs) (hw : w.Over refs)
    (h : v.same w = true) : v.kindName = w.kindName := by
  rw [same_iff] at h
  cases h with
  | object one => rw [hc _ _ (hv _ .here) (hw _ .here) one]
  | _ => rfl

theorem map_callType_eq_of_same (hc : Clones refs) (hvs : ∀ v ∈ vs, v.Over refs)
    (hws : ∀ w ∈ ws, w.Over refs) (h : List.Forall₂ (fun v w => v.same w = true) vs ws) :
    vs.map callType = ws.map callType := by
  induction h with
  | nil => rfl
  | cons hvw _ ih =>
    rw [List.forall_mem_cons] at hvs hws
    rw [List.map_cons, List.map_cons, callType_eq_of_same hc hvs.1 hws.1 hvw, ih hvs.2 hws.2]

end Clones

/-- What equality is where `refs` are all references to objects. -/
structure EqualityLaws (σ : Type) (refs : ObjectRef → Prop) : Prop where
  symm : ∀ v w : Value, v.same w = w.same v
  trans : ∀ u v w : Value, u.same v = true → v.same w = true → u.same w = true
  self : ∀ v : Value, v.same v = true ↔ ∀ x, Occurs (.double x) v → x.isNaN = false
  kind : ∀ v w : Value, v.same w = true → v.kind = w.kind
  kindName : ∀ v w : Value, v.Over refs → w.Over refs → v.same w = true →
    v.kindName = w.kindName
  callType : ∀ v w : Value, v.Over refs → w.Over refs → v.same w = true →
    v.callType = w.callType
  /-- Calls with equal arguments select the same method, whatever methods and classes there are. -/
  select : ∀ (h : Hierarchy) (table : List (Method σ)) (name : String) (vs ws : List Value),
    (∀ v ∈ vs, v.Over refs) → (∀ w ∈ ws, w.Over refs) →
    List.Forall₂ (fun v w => v.same w = true) vs ws →
    Method.select h table name (vs.map Value.callType) =
      Method.select h table name (ws.map Value.callType)

/-- Equality is a partial equivalence that keeps kinds apart, and selection cannot tell equal
arguments from each other. -/
theorem equality_laws {σ : Type} {refs : ObjectRef → Prop} (hc : Clones refs) :
    EqualityLaws σ refs where
  symm := same_comm
  trans _ _ _ := same_trans
  self _ := same_self_iff
  kind _ _ := kind_eq_of_same
  kindName _ _ := kindName_eq_of_same hc
  callType _ _ := callType_eq_of_same hc
  select _ _ _ _ _ hvs hws h := by rw [map_callType_eq_of_same hc hvs hws h]

end Value

namespace Canvas

/-- A point of a drawing. -/
def origin : ObjectRef := ⟨"demo.Point", "origin", .none⟩

/-- Two ways to draw; only the first one takes a point and a list. -/
def table : List (Method Unit) :=
  [{ name := "draw", params := [.host "demo.Point", .list],
     body := fun s _ => ({ outcome := .returned .null }, s) },
   { name := "draw", params := [.double, .list],
     body := fun s _ => ({ outcome := .returned .null }, s) }]

/-- The point and the list of a zero, whose sign is the bit pattern's. -/
def arguments (zero : UInt64) : List Value := [.object origin, .list [.double ⟨zero⟩]]

theorem over_origin {zero : UInt64} {v : Value} (hv : v ∈ arguments zero) :
    v.Over (· = origin) := by
  intro a ha
  rcases List.mem_pair.mp hv with rfl | rfl
  · cases ha
    rfl
  · cases ha with
    | item mem inside =>
      cases List.mem_singleton.mp mem
      cases inside

end Canvas

/-- The two zeros are equal, so the same method draws the lists of them. -/
theorem canvas_equality_laws :
    Value.Clones (· = Canvas.origin) ∧
      Canvas.arguments 0 ≠ Canvas.arguments 0x8000000000000000 ∧
      Method.select .flat Canvas.table "draw" ((Canvas.arguments 0).map Value.callType) =
        Method.select .flat Canvas.table "draw"
          ((Canvas.arguments 0x8000000000000000).map Value.callType) := by
  have hc : Value.Clones (· = Canvas.origin) := fun a b ha hb _ => ha.trans hb.symm
  have hsame : List.Forall₂ (fun v w : Value => v.same w = true) (Canvas.arguments 0)
      (Canvas.arguments 0x8000000000000000) :=
    .cons (by simp [Value.same, ObjectRef.same]) (.cons (by decide) .nil)
  refine ⟨hc, ?_, ?_⟩
  · simp [Canvas.arguments]
  · exact (Value.equality_laws (σ := Unit) hc).select .flat Canvas.table "draw" _ _
      (fun _ => Canvas.over_origin) (fun _ => Canvas.over_origin) hsame

end HostCall
