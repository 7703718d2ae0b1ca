import HostCall.Toml.Reader

/-!
# Quoted text in TOML

A text stands between double quotes, where a backslash begins an escape, or between single
quotes, where nothing is escaped; tripled quotes let it run over several lines. The functions
here read what follows the opening quotes, up to and with the closing ones.
-/

namespace HostCall.Toml

def hexDigit? (c : Char) : Option Nat :=
  if c.isDigit then some (c.toNat - '0'.toNat)
  else if 'a' ≤ c ∧ c ≤ 'f' then some (c.toNat - 'a'.toNat + 10)
  else if 'A' ≤ c ∧ c ≤ 'F' then some (c.toNat - 'A'.toNat + 10)
  else none

def hexNumber? (cs : List Char) : Option Nat :=
  cs.foldlM (fun n c => (hexDigit? c).map (16 * n + ·)) 0

/-- The character of a number, if there is one. -/
def scalar? (n : Nat) : Option Char := if n.isValidChar then some (Char.ofNat n) else none

def escape? : Reader Char
  | 'b' :: rest => some ('\x08', rest)
  | 't' :: rest => some ('\t', rest)
  | 'n' :: rest => some ('\n', rest)
  | 'f' :: rest => some ('\x0C', rest)
  | 'r' :: rest => some ('\r', rest)
  | '"' :: rest => some ('"', rest)
  | '\\' :: rest => some ('\\', rest)
  | 'u' :: a :: b :: c :: d :: rest =>
    ((hexNumber? [a, b, c, d]).bind scalar?).map (·, rest)
  | 'U' :: a :: b :: c :: d :: e :: f :: g :: h :: rest =>
    ((hexNumber? [a, b, c, d, e, f, g, h]).bind scalar?).map (·, rest)
  | _ => none

theorem length_lt_of_escape? {cs rest : List Char} {c : Char} (h : escape? cs = some (c, rest)) :
    rest.length < cs.length := by
  unfold escape? at h
  split at h <;>
    simp only [Option.some.injEq, Prod.mk.injEq, Option.map_eq_some_iff, reduceCtorEq] at h
  case h_8 | h_9 =>
    obtain ⟨_, _, _, rfl⟩ := h
    simp only [List.length_cons]
    omega
  all_goals
    obtain ⟨_, rfl⟩ := h
    simp

/-- Puts a character in front of a text that was read. -/
def withChar (c : Char) : List Char × List Char → List Char × List Char
  | (text, rest) => (c :: text, rest)

def basicLine : Reader (List Char)
  | [] => none
  | c :: rest =>
    if c = '"' then some ([], rest)
    else if c = '\\' then
      match _h : escape? rest with
      | some (d, left) => (basicLine left).map (withChar d)
      | none => none
    else if isContent c then (basicLine rest).map (withChar c)
    else none
termination_by cs => cs.length
decreasing_by
  · have := length_lt_of_escape? _h
    simp only [List.length_cons]
    omega
  · simp

def literalLine : Reader (List Char)
  | [] => none
  | c :: rest =>
    if c = '\'' then some ([], rest)
    else if isContent c then (literalLine rest).map (withChar c)
    else none

/-- Drops a line end right after the opening quotes. -/
def dropNewline (cs : List Char) : List Char := (newline? cs).getD cs

/-- Whether a text begins with three quotes of a kind. -/
def startsTriple (quote : Char) (cs : List Char) : Bool :=
  cs.take 3 == [quote, quote, quote]

/-- The end of a text in tripled quotes: up to two more quotes right before the closing ones are
part of the text. -/
def closeTriple (quote : Char) (cs : List Char) : List Char × List Char :=
  let extra := ((cs.drop 3).takeWhile (· = quote)).take 2
  (extra, (cs.drop 3).drop extra.length)

def skipBlankLines : List Char → List Char
  | ' ' :: rest => skipBlankLines rest
  | '\t' :: rest => skipBlankLines rest
  | '\n' :: rest => skipBlankLines rest
  | '\r' :: '\n' :: rest => skipBlankLines rest
  | cs => cs

theorem length_skipBlankLines_le (cs : List Char) : (skipBlankLines cs).length ≤ cs.length := by
  fun_induction skipBlankLines cs with
  | case1 _ ih | case2 _ ih | case3 _ ih | case4 _ ih =>
    simp only [List.length_cons]
    omega
  | case5 => exact Nat.le_refl _

theorem length_lt_of_newline? {cs rest : List Char} (h : newline? cs = some rest) :
    rest.length < cs.length := by
  unfold newline? at h
  split at h <;> simp only [Option.some.injEq, reduceCtorEq] at h <;> subst h <;>
    simp only [List.length_cons] <;> omega

/-- Drops the rest of a line that a backslash ended, and the blanks that begin the next text. -/
def continuation? (cs : List Char) : Option (List Char) :=
  (newline? (skipGap cs)).map skipBlankLines

theorem length_lt_of_continuation? {cs rest : List Char} (h : continuation? cs = some rest) :
    rest.length < cs.length := by
  simp only [continuation?, Option.map_eq_some_iff] at h
  obtain ⟨next, hn, rfl⟩ := h
  have h1 := length_lt_of_newline? hn
  have h2 := length_skipBlankLines_le next
  have h3 : (skipGap cs).length ≤ cs.length := (List.dropWhile_suffix _).length_le
  omega

def basicBlock : Reader (List Char)
  | [] => none
  | c :: rest =>
    if startsTriple '"' (c :: rest) then some (closeTriple '"' (c :: rest))
    else if c = '\\' then
      match _h : continuation? rest with
      | some left => basicBlock left
      | none =>
        match _h' : escape? rest with
        | some (d, left) => (basicBlock left).map (withChar d)
        | none => none
    else
      match _h : newline? (c :: rest) with
      | some left => (basicBlock left).map (withChar '\n')
      | none => if isContent c then (basicBlock rest).map (withChar c) else none
termination_by cs => cs.length
decreasing_by
  · have := length_lt_of_continuation? _h
    simp only [List.length_cons]
    omega
  · have := length_lt_of_escape? _h'
    simp only [List.length_cons]
    omega
  · exact length_lt_of_newline? _h
  · simp

def literalBlock : Reader (List Char)
  | [] => none
  | c :: rest =>
    if startsTriple '\'' (c :: rest) then some (closeTriple '\'' (c :: rest))
    else
      match _h : newline? (c :: rest) with
      | some left => (literalBlock left).map (withChar '\n')
      | none => if isContent c then (literalBlock rest).map (withChar c) else none
termination_by cs => cs.length
decreasing_by
  · exact length_lt_of_newline? _h
  · simp

/-- A quoted text of one line, as a key may be. -/
def line? : Reader (List Char)
  | '"' :: rest => basicLine rest
  | '\'' :: rest => literalLine rest
  | _ => none

def text? (cs : List Char) : Option (List Char × List Char) :=
  if startsTriple '"' cs then basicBlock (dropNewline (cs.drop 3))
  else if startsTriple '\'' cs then literalBlock (dropNewline (cs.drop 3))
  else line? cs

end HostCall.Toml
