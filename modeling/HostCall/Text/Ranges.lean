/-!
# Ranges of code points

A property of characters is a list of closed intervals of code points, in ascending order. The
tables in this folder are those of version 17.0 of the Unicode standard.
-/

namespace HostCall.Text

/-- Whether the code point of a character lies in one of the intervals. -/
def inRanges (ranges : List (Nat × Nat)) (c : Char) : Bool :=
  ranges.any fun r => r.1 ≤ c.toNat && c.toNat ≤ r.2

/-- A character lies in a list of intervals when it lies between the ends of one of them. -/
theorem inRanges_iff {ranges : List (Nat × Nat)} {c : Char} :
    inRanges ranges c = true ↔ ∃ r ∈ ranges, r.1 ≤ c.toNat ∧ c.toNat ≤ r.2 := by
  simp only [inRanges, List.any_eq_true, Bool.and_eq_true, decide_eq_true_eq]

end HostCall.Text
