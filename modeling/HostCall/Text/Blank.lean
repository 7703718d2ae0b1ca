import HostCall.Text.Ranges

/-!
# Blank text

The blank characters are those with the Unicode property White_Space; a text is blank when it
holds nothing else.
-/

namespace HostCall.Text

/-- The code points with the property White_Space, as closed intervals in ascending order. -/
def blankRanges : List (Nat × Nat) :=
  [(0x9, 0xD), (0x20, 0x20), (0x85, 0x85), (0xA0, 0xA0), (0x1680, 0x1680), (0x2000, 0x200A),
    (0x2028, 0x2029), (0x202F, 0x202F), (0x205F, 0x205F), (0x3000, 0x3000)]

def isBlankChar (c : Char) : Bool := inRanges blankRanges c

/-- Whether a text has no character that is not blank; the empty text is blank. -/
def isBlank (s : String) : Bool := s.toList.all isBlankChar

/-- The blank characters of ASCII are blank here too. -/
theorem isBlankChar_of_isWhitespace {c : Char} (h : c.isWhitespace = true) :
    isBlankChar c = true := by
  simp only [Char.isWhitespace, Bool.or_eq_true, decide_eq_true_eq] at h
  rcases h with ((rfl | rfl) | rfl) | rfl <;> decide

end HostCall.Text
