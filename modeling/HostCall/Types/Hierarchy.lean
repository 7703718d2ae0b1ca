import HostCall.Types.CallType

/-!
# Class hierarchies and assignability

A hierarchy lists the direct supertypes of finitely many classes. Supertypes may be unknown,
repeated or in a cycle; a class is a subclass of every class that supertypes lead to in zero or
more steps. An argument may stand where its type is accepted.
-/

namespace HostCall

/-- The direct supertypes of the declared classes; the first declaration of a class counts. -/
structure Hierarchy where
  declared : List (String × List String)

namespace Hierarchy

def flat : Hierarchy := ⟨[]⟩

/-- Direct supertypes of a class; an unknown class has none. -/
def supertypes (h : Hierarchy) (className : String) : List String :=
  (h.declared.lookup className).getD []

/-- How many declarations are of classes that were not seen yet. -/
def unseen (h : Hierarchy) (seen : List String) : Nat :=
  (h.declared.filter fun d => !seen.contains d.1).length

private theorem unseen_cons (h : Hierarchy) (c : String) (seen : List String) :
    h.unseen (c :: seen) =
      ((h.declared.filter fun d => !seen.contains d.1).filter fun d => d.1 != c).length := by
  simp only [unseen, List.filter_filter, List.contains_cons, Bool.not_or, bne]

/-- Seeing a class leaves fewer declarations unseen, or the class has no supertypes. -/
theorem unseen_cons_lt_or (h : Hierarchy) {seen : List String} {c : String}
    (hc : seen.contains c = false) :
    h.unseen (c :: seen) < h.unseen seen ∨
      h.unseen (c :: seen) = h.unseen seen ∧ h.supertypes c = [] := by
  rw [unseen_cons]
  by_cases hd : ∃ d ∈ h.declared, d.1 = c
  · left
    obtain ⟨d, hd, rfl⟩ := hd
    rw [unseen, List.length_filter_lt_length_iff_exists]
    exact ⟨d, List.mem_filter.mpr ⟨hd, by simp only [hc, Bool.not_false]⟩, by simp⟩
  · right
    have hne : ∀ d ∈ h.declared, d.1 ≠ c := fun d hd' e => hd ⟨d, hd', e⟩
    constructor
    · rw [unseen, List.filter_eq_self.mpr]
      intro d hd'
      simpa using hne d (List.mem_filter.mp hd').1
    · have hl : h.declared.lookup c = none :=
        List.lookup_eq_none_iff.mpr fun d hd' => by simpa using Ne.symm (hne d hd')
      simp only [supertypes, hl, Option.getD_none]

/-- Searches a class among pending ones and all that their supertypes lead to, never twice
through one class. -/
def search (h : Hierarchy) (goal : String) (seen : List String) : List String → Bool
  | [] => false
  | c :: pending =>
    if c = goal then true
    else if _h : seen.contains c = true then search h goal seen pending
    else search h goal (c :: seen) (h.supertypes c ++ pending)
termination_by pending => (h.unseen seen, pending.length)
decreasing_by
  · exact Prod.Lex.right _ (by simp)
  · rcases h.unseen_cons_lt_or (Bool.eq_false_iff.mpr _h) with hlt | ⟨heq, hnil⟩
    · exact Prod.Lex.left _ _ hlt
    · rw [heq, hnil]
      exact Prod.Lex.right _ (by simp)

/-- Whether a class is another one, or one that its supertypes lead to. -/
def isSubclass (h : Hierarchy) (sub sup : String) : Bool := h.search sup [] [sub]

/-- Whether an argument of one type may stand where another is declared. Every type accepts
itself, and object accepts all; null fits where the type is not primitive; a class accepts its
subclasses. Nothing else is accepted, so numbers are never widened. -/
def accepts (h : Hierarchy) (declared actual : CallType) : Bool :=
  declared == actual ||
    match declared, actual with
    | .object, _ => true
    | d, .null => !d.isPrimitive && d != .null
    | .host want, .host got => h.isSubclass got want
    | _, _ => false

end Hierarchy

end HostCall
