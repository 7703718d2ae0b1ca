import HostCall.Proofs.Component.Answer
import HostCall.Proofs.Graph.Copy
import HostCall.Proofs.Value.Grammar

/-!
# Values spelled out

Null, truth values, integers and texts can be spelled as tokens, texts in quotes of either kind and
all else as it is rendered, and reading a token gives the value back. So a call whose children are
leaves named by such tokens runs its method on exactly these values.
-/

namespace HostCall

namespace Literal

open Sign (Signed Fits)

/-- A text in quotes; nothing in it is escaped. -/
def inQuotes (q : Char) (s : String) : String := String.ofList (q :: (s.toList ++ [q]))

/-- A token that spells a value. -/
inductive Spells : String → Value → Prop
  | null : Spells Value.null.render .null
  | bool (b : Bool) : Spells (Value.bool b).render (.bool b)
  | long (n : Int64) : Spells (Value.long n).render (.long n)
  | text {q : Char} (hq : q = '"' ∨ q = '\'') (s : String) : Spells (inQuotes q s) (.text s)

/-- An integer is read back from its digits. -/
theorem integer_toString (n : Int) : Integer (toString n).toList n := by
  have hsplit : ∀ k : Nat, Nat.ofDigitChars 10 (Nat.toDigits 10 k) 0 = k := fun _ =>
    Nat.ofDigitChars_ten_toDigits
  change Integer (Int.repr n).toList n
  rw [Int.repr_eq_if]
  split
  · rename_i hn
    have h := Integer.intro (.bare _) (digits_toDigits n.toNat)
    rw [hsplit, Sign.apply, if_neg Bool.false_ne_true, Int.toNat_of_nonneg hn] at h
    rwa [Nat.toList_repr]
  · rename_i hn
    have h := Integer.intro (.minus _) (digits_toDigits (-n).toNat)
    rw [hsplit, Sign.apply, if_pos rfl, Int.toNat_of_nonneg (by omega), Int.neg_neg] at h
    rw [String.toList_append, Nat.toList_repr]
    exact h

theorem fits_toInt (n : Int64) : Fits n.toInt := by
  have hlow := n.le_toInt
  have hhigh := n.toInt_lt
  constructor <;> omega

/-- A token stands for the integer of 64 bits that it is written as. -/
theorem denotes_toString (n : Int64) : Denotes (toString n.toInt) (.long n) := by
  have h := integer_toString n.toInt
  have hd := Denotes.long h.not_keyword h.not_quoted h (fits_toInt n)
  rwa [Int64.ofInt_toInt] at hd

theorem denotes_inQuotes {q : Char} (hq : q = '"' ∨ q = '\'') (s : String) :
    Denotes (inQuotes q s) (.text s) := by
  have hlist : (inQuotes q s).toList = q :: (s.toList ++ [q]) := String.toList_ofList
  have hplain : ∀ v, ¬ Keyword (inQuotes q s) v := by
    intro v hv
    generalize inQuotes q s = token at hlist hv
    cases hv <;>
    · obtain ⟨rfl, -⟩ := List.cons.inj hlist
      exact absurd hq (by decide)
  have hd := Denotes.quoted hplain ⟨q, hq, hlist⟩
  rwa [String.ofList_toList] at hd

theorem Spells.ofToken_eq {token : String} {v : Value} (h : Spells token v) :
    ofToken token = v := by
  cases h with
  | null => rfl
  | bool b => cases b <;> rfl
  | long n => exact (denotes_toString n).ofToken_eq
  | text hq s => exact (denotes_inQuotes hq s).ofToken_eq

/-- A call whose children are leaves named by tokens. -/
def tokenCall (name : String) (tokens : List String) : NodeView :=
  (Graph.node name (tokens.map Graph.leaf)).view

theorem children_tokenCall (name : String) (tokens : List String) :
    (tokenCall name tokens).children = tokens.map fun token => (Graph.leaf token).view := by
  rw [tokenCall, Graph.children_view, Graph.children, List.map_map]
  rfl

theorem claimed_tokenCall (name : String) (tokens : List String) :
    (tokenCall name tokens).claimed = tokens.length := by
  rw [tokenCall, Graph.claimed_view, Graph.children, List.length_map]

/-- A leaf named by a token that spells a value is evaluated to that value. -/
theorem Spells.literal_eq {token : String} {v : Value} (h : Spells token v) :
    (Evaluator.literal (Graph.leaf token).view).answer = .ok v := by
  have hread : Evaluator.read (Graph.leaf token).view = .ok (ofToken token) := rfl
  rw [Evaluator.literal, hread, h.ofToken_eq]

/-- Reading literals has no effects. -/
theorem seen_literal (nodes : List NodeView) : Evaluator.literal.seen nodes = [] := by
  simp [Evaluator.seen, Evaluator.literal]

theorem yields_tokenCall {name : String} {tokens : List String} {values : List Value}
    (h : List.Forall₂ Spells tokens values) :
    Evaluator.literal.Yields (tokenCall name tokens).children values := by
  rw [children_tokenCall]
  induction h with
  | nil => exact .nil
  | cons hv _ ih => exact .cons hv.literal_eq ih

end Literal

namespace Component

open Literal (Spells tokenCall)

variable {σ : Type} {c : Component σ} {b : Binding σ}

/-- A call with tokens that spell values runs its method on these values. -/
theorem invoke_tokenCall (hc : c.Sound) (hb : c.standing = .bound b)
    (he : c.evaluator = .literal) {name : String} {tokens : List String} {values : List Value}
    (hs : List.Forall₂ Spells tokens values) (hne : values ≠ [])
    (hmax : ∀ max, c.options.maxArgs = some max → values.length ≤ max) {m : Method σ} {fit : Fit}
    (hm : Method.Chosen c.registry.hierarchy b.owner.methods name (values.map Value.callType) m
      fit) :
    (c.invoke (tokenCall name tokens)).value =
        (b.methodReply m values, c.withState (m.body b.receiver.state values).2) ∧
      (c.invoke (tokenCall name tokens)).seen = (m.body b.receiver.state values).1.events := by
  have hname : (tokenCall name tokens).name = name := Graph.name_view _
  have hclaimed : (tokenCall name tokens).claimed = values.length := by
    rw [Literal.claimed_tokenCall, hs.length_eq]
  have hunread : b.Unread c.context (tokenCall name tokens) := by
    rintro f ⟨-, hzero, -⟩
    rw [hclaimed] at hzero
    exact hne (List.length_eq_zero_iff.mp hzero)
  have hwithin : (tokenCall name tokens).Within c.options.maxArgs := by
    rintro max ⟨hsome, hlt⟩
    rw [hclaimed] at hlt
    exact Nat.not_lt_of_le (hmax max hsome) hlt
  have hyields : c.context.evaluator.Yields (tokenCall name tokens).children values := by
    rw [context, he]
    exact Literal.yields_tokenCall hs
  have hresolves : b.Resolves c.context (tokenCall name tokens) m values :=
    ⟨⟨hunread, hwithin, hyields⟩, fit, by rw [hname]; exact hm⟩
  obtain ⟨hvalue, hseen⟩ := invoke_of_decides hc hb (.method hresolves)
  refine ⟨hvalue, ?_⟩
  rw [hseen, Decision.seen, he, Literal.seen_literal, List.nil_append]

end Component

namespace Literal

/-- Values that tokens can spell. -/
def Spellable : Value → Prop
  | .null | .bool _ | .long _ | .text _ => True
  | _ => False

theorem Spellable.exists_spells {v : Value} (h : Spellable v) : ∃ token, Spells token v := by
  cases v with
  | null => exact ⟨_, .null⟩
  | bool b => exact ⟨_, .bool b⟩
  | long n => exact ⟨_, .long n⟩
  | text s => exact ⟨_, .text (.inl rfl) s⟩
  | int | double | list | node | object => exact h.elim

/-- What is written for a value, and what is read from that. -/
structure RoundTrips : Prop where
  long : ∀ n : Int64, ofToken (Value.long n).render = .long n
  int : ∀ n : Int32, ofToken (Value.int n).render = .long n.toInt64 ∧ n.toInt64.toInt = n.toInt
  null : ofToken Value.null.render = .null
  bool : ∀ b, ofToken (Value.bool b).render = .bool b
  quoted : ∀ q s, q = '"' ∨ q = '\'' → ofToken (inQuotes q s) = .text s
  spelled : ∀ values, (∀ v ∈ values, Spellable v) → ∃ tokens, List.Forall₂ Spells tokens values
  evaluated : ∀ token v, Spells token v →
    (Evaluator.literal (Graph.leaf token).view).answer = .ok v
  /-- A call whose leaves spell values runs the chosen method once, on exactly these values. -/
  passed : ∀ {σ : Type} (c : Component σ) (b : Binding σ), c.Reachable → c.standing = .bound b →
    c.evaluator = .literal → ∀ name tokens values, List.Forall₂ Spells tokens values →
    values ≠ [] → (∀ max, c.options.maxArgs = some max → values.length ≤ max) →
    ∀ m fit, Method.Chosen c.registry.hierarchy b.owner.methods name
      (values.map Value.callType) m fit →
    (c.invoke (tokenCall name tokens)).value =
        (b.methodReply m values, c.withState (m.body b.receiver.state values).2) ∧
      (c.invoke (tokenCall name tokens)).seen = (m.body b.receiver.state values).1.events

theorem roundTrips : RoundTrips where
  long n := (Spells.long n).ofToken_eq
  int n := by
    have hn : n.toInt64.toInt = n.toInt := n.toInt_toInt64
    refine ⟨?_, hn⟩
    rw [Value.render, ← hn]
    exact (denotes_toString n.toInt64).ofToken_eq
  null := Spells.null.ofToken_eq
  bool b := (Spells.bool b).ofToken_eq
  quoted _ s hq := (Spells.text hq s).ofToken_eq
  spelled values hvalues := by
    induction values with
    | nil => exact ⟨[], .nil⟩
    | cons v values ih =>
      obtain ⟨token, hv⟩ := (hvalues v List.mem_cons_self).exists_spells
      obtain ⟨tokens, hrest⟩ := ih fun w hw => hvalues w (List.mem_cons_of_mem v hw)
      exact ⟨token :: tokens, .cons hv hrest⟩
  evaluated _ _ h := h.literal_eq
  passed _ _ hc hb he _ _ _ hs hne hmax _ _ hm :=
    Component.invoke_tokenCall hc.sound hb he hs hne hmax hm

end Literal

end HostCall
