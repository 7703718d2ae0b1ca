import HostCall.Toml.Text
import HostCall.Toml.Writer
import Mathlib.Tactic.SplitIfs

/-!
# Quoted text reads back

Whatever characters a text has, one of the four ways to quote it is chosen, and reading what is
written that way takes exactly the quoted text off and answers the text.
-/

namespace HostCall.Toml

section Lines

variable {c d : Char} {cs left rest : List Char}

theorem newline?_eq_none (hn : c ≠ '\n') (hr : c ≠ '\r') : newline? (c :: rest) = none := by
  rw [newline?]
  · intro _ h
    exact hn (List.cons.inj h).1
  · intro _ h
    exact hr (List.cons.inj h).1

theorem ne_of_isContent (h : isContent c = true) : c ≠ '\n' ∧ c ≠ '\r' := by
  constructor <;>
  · rintro rfl
    exact absurd h (by decide)

theorem basicLine_close (rest : List Char) : basicLine ('"' :: rest) = some ([], rest) := by
  rw [basicLine, if_pos rfl]

theorem basicLine_escape (h : escape? rest = some (d, left)) :
    basicLine ('\\' :: rest) = (basicLine left).map (withChar d) := by
  rw [basicLine, if_neg (by decide), if_pos rfl]
  split
  · rename_i d' left' h'
    obtain ⟨rfl, rfl⟩ := Prod.mk.inj (Option.some.inj (h.symm.trans h'))
    rfl
  · rename_i h'
    rw [h] at h'
    cases h'

theorem basicLine_content (hq : c ≠ '"') (hb : c ≠ '\\') (hc : isContent c = true) :
    basicLine (c :: rest) = (basicLine rest).map (withChar c) := by
  rw [basicLine, if_neg hq, if_neg hb, if_pos hc]

theorem basicBlock_close (h : startsTriple '"' cs = true) :
    basicBlock cs = some (closeTriple '"' cs) := by
  cases cs with
  | nil => cases h
  | cons c rest => rw [basicBlock, if_pos h]

theorem basicBlock_escape (hc : continuation? rest = none) (h : escape? rest = some (d, left)) :
    basicBlock ('\\' :: rest) = (basicBlock left).map (withChar d) := by
  rw [basicBlock, if_neg (by simp [startsTriple]), if_pos rfl]
  split
  · rename_i left' h'
    rw [hc] at h'
    cases h'
  · split
    · rename_i d' left' h'
      obtain ⟨rfl, rfl⟩ := Prod.mk.inj (Option.some.inj (h.symm.trans h'))
      rfl
    · rename_i h'
      rw [h] at h'
      cases h'

theorem basicBlock_newline (rest : List Char) :
    basicBlock ('\n' :: rest) = (basicBlock rest).map (withChar '\n') := by
  rw [basicBlock, if_neg (by simp [startsTriple]), if_neg (by decide)]
  rfl

theorem basicBlock_content (ht : startsTriple '"' (c :: rest) = false) (hb : c ≠ '\\')
    (hc : isContent c = true) : basicBlock (c :: rest) = (basicBlock rest).map (withChar c) := by
  obtain ⟨hn, hr⟩ := ne_of_isContent hc
  have hnone : newline? (c :: rest) = none := newline?_eq_none hn hr
  rw [basicBlock, if_neg (by simp [ht]), if_neg hb]
  split
  · rename_i left' h'
    rw [hnone] at h'
    cases h'
  · rw [if_pos hc]

theorem literalBlock_close (h : startsTriple '\'' cs = true) :
    literalBlock cs = some (closeTriple '\'' cs) := by
  cases cs with
  | nil => cases h
  | cons c rest => rw [literalBlock, if_pos h]

theorem literalBlock_newline (rest : List Char) :
    literalBlock ('\n' :: rest) = (literalBlock rest).map (withChar '\n') := by
  rw [literalBlock, if_neg (by simp [startsTriple])]
  rfl

theorem literalBlock_content (ht : startsTriple '\'' (c :: rest) = false)
    (hc : isContent c = true) :
    literalBlock (c :: rest) = (literalBlock rest).map (withChar c) := by
  obtain ⟨hn, hr⟩ := ne_of_isContent hc
  have hnone : newline? (c :: rest) = none := newline?_eq_none hn hr
  rw [literalBlock, if_neg (by simp [ht])]
  split
  · rename_i left' h'
    rw [hnone] at h'
    cases h'
  · rw [if_pos hc]

end Lines

section Closing

variable {q : Char} {k : Nat} {cs rest : List Char}

theorem startsTriple_replicate (k : Nat) (rest : List Char) :
    startsTriple q (List.replicate k q ++ q :: q :: q :: rest) = true := by
  match k with
  | 0 | 1 | 2 | _ + 3 => simp [startsTriple, List.replicate_succ]

/-- Up to two quotes in front of the closing ones belong to the text. -/
theorem closeTriple_replicate (hk : k ≤ 2) (hr : rest.head? ≠ some q) :
    closeTriple q (List.replicate k q ++ q :: q :: q :: rest) = (List.replicate k q, rest) := by
  have hdrop : (List.replicate k q ++ q :: q :: q :: rest).drop 3 = List.replicate k q ++ rest := by
    match k, hk with
    | 0, _ | 1, _ | 2, _ => rfl
  have htake : rest.takeWhile (· = q) = [] := by
    cases rest with
    | nil => rfl
    | cons c rest =>
      have hc : c ≠ q := fun h => hr (congrArg some h)
      simp [hc]
  have hquotes : (List.replicate k q ++ rest).takeWhile (· = q) = List.replicate k q := by
    rw [List.takeWhile_append_of_pos (by simp), htake, List.append_nil]
  have htwo : (List.replicate k q).take 2 = List.replicate k q :=
    List.take_of_length_le (by simpa using hk)
  simp only [closeTriple, hdrop, hquotes, htwo, List.length_replicate]
  rw [List.drop_left' List.length_replicate]

theorem basicBlock_replicate (hk : k ≤ 2) (hr : rest.head? ≠ some '"') :
    basicBlock (List.replicate k '"' ++ '"' :: '"' :: '"' :: rest) =
      some (List.replicate k '"', rest) := by
  rw [basicBlock_close (startsTriple_replicate k rest), closeTriple_replicate hk hr]

theorem literalBlock_replicate (hk : k ≤ 2) (hr : rest.head? ≠ some '\'') :
    literalBlock (List.replicate k '\'' ++ '\'' :: '\'' :: '\'' :: rest) =
      some (List.replicate k '\'', rest) := by
  rw [literalBlock_close (startsTriple_replicate k rest), closeTriple_replicate hk hr]

/-- Where tripled quotes begin inside a text that has none, only quotes are left of it. -/
theorem exists_replicate_of_startsTriple (h : Writer.hasTriple q cs = false)
    (ht : startsTriple q (cs ++ q :: q :: q :: rest) = true) :
    ∃ k ≤ 2, cs = List.replicate k q := by
  match cs with
  | [] => exact ⟨0, by omega, rfl⟩
  | [a] =>
    have ha : a = q := by simpa [startsTriple] using ht
    exact ⟨1, by omega, by rw [ha]; rfl⟩
  | [a, b] =>
    have hab : a = q ∧ b = q := by simpa [startsTriple] using ht
    exact ⟨2, by omega, by rw [hab.1, hab.2]; rfl⟩
  | a :: b :: c :: cs =>
    have habc : a = q ∧ b = q ∧ c = q := by simpa [startsTriple] using ht
    simp [Writer.hasTriple, habc] at h

end Closing

section Escapes

variable {c : Char} {b : Bool} {w rest : List Char}

/-- A line goes on after a backslash only if nothing but blanks stands before its end. -/
theorem continuation?_eq_none (hg : isGap c = false) (hn : c ≠ '\n') (hr : c ≠ '\r') :
    continuation? (c :: rest) = none := by
  rw [continuation?, skipGap, List.dropWhile_cons_of_neg (by simp [hg]), newline?_eq_none hn hr]
  rfl

theorem hexNumber?_hex4 :
    ∀ n < 0x80, (Writer.hex4 n).length = 4 ∧ hexNumber? (Writer.hex4 n) = some n := by
  decide +kernel

theorem escape?_hex4 (hc : c.toNat < 0x80) (rest : List Char) :
    escape? ('u' :: (Writer.hex4 c.toNat ++ rest)) = some (c, rest) := by
  obtain ⟨hlen, hread⟩ := hexNumber?_hex4 c.toNat hc
  generalize Writer.hex4 c.toNat = ds at hlen hread
  match ds, hlen with
  | [_, _, _, _], _ =>
    have hscalar : scalar? c.toNat = some c := by
      rw [scalar?, if_pos (show c.toNat.isValidChar from c.valid), Char.ofNat_toNat]
    simp only [List.cons_append, List.nil_append, escape?, hread, Option.bind_some, hscalar,
      Option.map_some]

/-- The ways to write a character between double quotes; line ends stay only in a block. -/
inductive Escapes (b : Bool) (c : Char) : List Char → Prop
  | plain (hb : c ≠ '\\') (hc : isContent c = true) : Escapes b c [c]
  | lineEnd (hb : b = true) (hc : c = '\n') : Escapes b c [c]
  | sequence {w : List Char} (read : ∀ rest, escape? (w ++ rest) = some (c, rest))
      (here : ∀ rest, continuation? (w ++ rest) = none) : Escapes b c ('\\' :: w)

/-- A letter after a backslash stands for one character. -/
theorem Escapes.letter {a : Char} (hread : ∀ rest, escape? (a :: rest) = some (c, rest))
    (ha : isGap a = false ∧ a ≠ '\n' ∧ a ≠ '\r') : Escapes b c ['\\', a] :=
  .sequence hread fun _ => continuation?_eq_none ha.1 ha.2.1 ha.2.2

theorem isContent_of_not_isControl (h : Writer.isControl c = false) : isContent c = true := by
  simp only [Writer.isControl, Bool.or_eq_false_iff, decide_eq_false_iff_not] at h
  simp only [isContent, Bool.or_eq_true, Bool.and_eq_true, decide_eq_true_eq]
  omega

theorem escapes_escaped (b : Bool) (c : Char) : Escapes b c (Writer.escaped b c) := by
  rw [Writer.escaped]
  split_ifs with hback htab hline hblock hfeed hreturn hslash hcontrol
  · subst hback
    exact .letter (fun _ => rfl) (by decide)
  · subst htab
    exact .letter (fun _ => rfl) (by decide)
  · subst hline
    exact .lineEnd hblock rfl
  · subst hline
    exact .letter (fun _ => rfl) (by decide)
  · subst hfeed
    exact .letter (fun _ => rfl) (by decide)
  · subst hreturn
    exact .letter (fun _ => rfl) (by decide)
  · subst hslash
    exact .letter (fun _ => rfl) (by decide)
  · have hc : c.toNat < 0x80 := by
      simp only [Writer.isControl, Bool.or_eq_true, decide_eq_true_eq] at hcontrol
      omega
    exact .sequence (escape?_hex4 hc) fun _ =>
      continuation?_eq_none (by decide) (by decide) (by decide)
  · exact .plain hslash (isContent_of_not_isControl (by simpa using hcontrol))

theorem Escapes.basicLine_eq (h : Escapes false c w) (hq : c ≠ '"') (rest : List Char) :
    basicLine (w ++ rest) = (basicLine rest).map (withChar c) := by
  cases h with
  | plain hb hc => exact basicLine_content hq hb hc
  | lineEnd hb => cases hb
  | sequence read => exact basicLine_escape (read rest)

theorem Escapes.basicBlock_eq (h : Escapes true c w) (hq : c ≠ '"') (rest : List Char) :
    basicBlock (w ++ rest) = (basicBlock rest).map (withChar c) := by
  cases h with
  | plain hb hc =>
    have ht : startsTriple '"' (c :: rest) = false := by simp [startsTriple, hq]
    exact basicBlock_content ht hb hc
  | lineEnd _ hc =>
    subst hc
    exact basicBlock_newline rest
  | sequence read here => exact basicBlock_escape (here rest) (read rest)

/-- Only a quote is written as something that begins with one. -/
theorem Escapes.head?_ne (h : Escapes b c w) (hq : c ≠ '"') (rest : List Char) :
    (w ++ rest).head? ≠ some '"' := by
  cases h with
  | plain | lineEnd => exact fun hc => hq (Option.some.inj hc)
  | sequence => exact fun hc => absurd (Option.some.inj hc) (by decide)

/-- Only a line end is written as something that begins with one. -/
theorem Escapes.newline?_eq_none (h : Escapes b c w) (hn : c ≠ '\n') (rest : List Char) :
    newline? (w ++ rest) = none := by
  cases h with
  | plain _ hc => exact Toml.newline?_eq_none hn (ne_of_isContent hc).2
  | lineEnd _ hc => exact absurd hc hn
  | sequence => exact Toml.newline?_eq_none (by decide) (by decide)

end Escapes

section Basic

variable {cs rest : List Char} {quotes : Nat}

theorem escapeAll_cons_of_ne {c : Char} (hq : c ≠ '"') (b : Bool) :
    Writer.escapeAll b quotes (c :: cs) = Writer.escaped b c ++ Writer.escapeAll b 0 cs := by
  rw [Writer.escapeAll, if_neg hq]

theorem escapeAll_cons_quote {b : Bool} (h : quotes < Writer.freeQuotes b) :
    Writer.escapeAll b quotes ('"' :: cs) = '"' :: Writer.escapeAll b (quotes + 1) cs := by
  rw [Writer.escapeAll, if_pos rfl, if_pos h]

theorem escapeAll_cons_escape {b : Bool} (h : ¬ quotes < Writer.freeQuotes b) :
    Writer.escapeAll b quotes ('"' :: cs) = '\\' :: '"' :: Writer.escapeAll b 0 cs := by
  rw [Writer.escapeAll, if_pos rfl, if_neg h]

/-- Between double quotes on one line a text reads back. -/
theorem basicLine_escapeAll (cs rest : List Char) :
    basicLine (Writer.escapeAll false 0 cs ++ '"' :: rest) = some (cs, rest) := by
  induction cs with
  | nil => exact basicLine_close rest
  | cons c cs ih =>
    by_cases hq : c = '"'
    · subst hq
      rw [escapeAll_cons_escape (by decide), List.cons_append, List.cons_append,
        basicLine_escape rfl, ih]
      rfl
    · rw [escapeAll_cons_of_ne hq, List.append_assoc,
        (escapes_escaped false c).basicLine_eq hq, ih]
      rfl

/-- A written text goes on with a quote only where it ends or has a quote of its own. -/
theorem eq_cons_of_head?_escapeAll
    (h : (Writer.escapeAll true quotes cs ++ rest).head? = some '"') :
    cs = [] ∨ quotes < 2 ∧ ∃ more, cs = '"' :: more := by
  cases cs with
  | nil => exact .inl rfl
  | cons c cs =>
    right
    by_cases hq : c = '"'
    · subst hq
      by_cases hfree : quotes < Writer.freeQuotes true
      · exact ⟨hfree, cs, rfl⟩
      · rw [escapeAll_cons_escape hfree] at h
        cases h
    · rw [escapeAll_cons_of_ne hq, List.append_assoc] at h
      exact absurd h ((escapes_escaped true c).head?_ne hq _)

theorem head?_of_startsTriple {q : Char} (h : startsTriple q cs = true) :
    cs.head? = some q ∧ cs.tail.head? = some q ∧ cs.tail.tail.head? = some q := by
  match cs with
  | [] | [_] | [_, _] => simp [startsTriple] at h
  | a :: b :: c :: cs => simpa [startsTriple] using h

/-- Where tripled quotes begin inside a written text, only quotes are left of it. -/
theorem exists_replicate_of_startsTriple_escapeAll (hquotes : quotes ≤ 2)
    (h : startsTriple '"' (Writer.escapeAll true quotes cs ++ '"' :: '"' :: '"' :: rest) = true) :
    ∃ k, quotes + k ≤ 2 ∧ cs = List.replicate k '"' := by
  obtain ⟨hfirst, hsecond, hthird⟩ := head?_of_startsTriple h
  obtain rfl | ⟨hlt, cs, rfl⟩ := eq_cons_of_head?_escapeAll hfirst
  · exact ⟨0, hquotes, rfl⟩
  · rw [escapeAll_cons_quote hlt] at hsecond hthird
    obtain rfl | ⟨hlt', cs, rfl⟩ := eq_cons_of_head?_escapeAll hsecond
    · exact ⟨1, hlt, rfl⟩
    · rw [escapeAll_cons_quote hlt'] at hthird
      obtain rfl | ⟨hlt'', -⟩ := eq_cons_of_head?_escapeAll hthird
      · exact ⟨2, hlt', rfl⟩
      · omega

theorem escapeAll_replicate {k : Nat} (h : quotes + k ≤ 2) :
    Writer.escapeAll true quotes (List.replicate k '"') = List.replicate k '"' := by
  induction k generalizing quotes with
  | zero => rfl
  | succ k ih =>
    have hfree : quotes < Writer.freeQuotes true := show quotes < 2 by omega
    rw [List.replicate_succ, escapeAll_cons_quote hfree, ih (by omega)]

/-- Between tripled double quotes a text reads back, wherever quotes stand in it. -/
theorem basicBlock_escapeAll (hr : rest.head? ≠ some '"') (hquotes : quotes ≤ 2)
    (cs : List Char) :
    basicBlock (Writer.escapeAll true quotes cs ++ '"' :: '"' :: '"' :: rest) =
      some (cs, rest) := by
  induction cs generalizing quotes with
  | nil =>
    exact basicBlock_replicate (Nat.zero_le 2) hr
  | cons c cs ih =>
    cases ht : startsTriple '"' (Writer.escapeAll true quotes (c :: cs) ++
        '"' :: '"' :: '"' :: rest) with
    | true =>
      -- The closing quotes begin within the last quotes of the text.
      obtain ⟨k, hk, hcs⟩ := exists_replicate_of_startsTriple_escapeAll hquotes ht
      rw [hcs, escapeAll_replicate hk]
      exact basicBlock_replicate (by omega) hr
    | false =>
      by_cases hq : c = '"'
      · subst hq
        by_cases hfree : quotes < Writer.freeQuotes true
        · rw [escapeAll_cons_quote hfree, List.cons_append] at ht ⊢
          rw [basicBlock_content ht (by decide) rfl, ih hfree]
          rfl
        · rw [escapeAll_cons_escape hfree, List.cons_append, List.cons_append,
            basicBlock_escape (continuation?_eq_none rfl (by decide) (by decide)) rfl,
            ih (Nat.zero_le 2)]
          rfl
      · rw [escapeAll_cons_of_ne hq, List.append_assoc,
          (escapes_escaped true c).basicBlock_eq hq, ih (Nat.zero_le 2)]
        rfl

end Basic

section Literal

variable {cs rest : List Char}

/-- Characters that may stand in quoted text or end a line in it. -/
def Plain (cs : List Char) : Prop := ∀ c ∈ cs, isContent c = true ∨ c = '\n'

theorem plain_of_hasControl (h : Writer.hasControl cs = false) : Plain cs := by
  intro c hc
  have hsafe := List.any_eq_false.mp h c hc
  cases hcontrol : Writer.isControl c with
  | false => exact .inl (isContent_of_not_isControl hcontrol)
  | true =>
    by_cases htab : c = '\t'
    · exact .inl (htab ▸ rfl)
    · exact .inr (by simpa [hcontrol, htab] using hsafe)

/-- Between single quotes a text without them reads back, if it is one line. -/
theorem literalLine_append (hq : '\'' ∉ cs) (hc : ∀ c ∈ cs, isContent c = true)
    (rest : List Char) : literalLine (cs ++ '\'' :: rest) = some (cs, rest) := by
  induction cs with
  | nil => rfl
  | cons c cs ih =>
    have hne : c ≠ '\'' := fun h => hq (h ▸ List.mem_cons_self)
    rw [List.cons_append, literalLine, if_neg hne, if_pos (hc c List.mem_cons_self),
      ih (fun h => hq (List.mem_cons_of_mem c h)) fun d hd => hc d (List.mem_cons_of_mem c hd)]
    rfl

/-- Between tripled single quotes a text without such quotes reads back. -/
theorem literalBlock_append (hr : rest.head? ≠ some '\'') (ht : Writer.hasTriple '\'' cs = false)
    (hc : Plain cs) :
    literalBlock (cs ++ '\'' :: '\'' :: '\'' :: rest) = some (cs, rest) := by
  induction cs with
  | nil =>
    exact literalBlock_replicate (Nat.zero_le 2) hr
  | cons c cs ih =>
    cases hstart : startsTriple '\'' (c :: cs ++ '\'' :: '\'' :: '\'' :: rest) with
    | true =>
      obtain ⟨k, hk, hcs⟩ := exists_replicate_of_startsTriple ht hstart
      rw [hcs]
      exact literalBlock_replicate hk hr
    | false =>
      have hmore : Writer.hasTriple '\'' cs = false := (Bool.or_eq_false_iff.mp ht).2
      have hread := ih hmore fun d hd => hc d (List.mem_cons_of_mem c hd)
      rw [List.cons_append] at hstart ⊢
      obtain hcontent | rfl := hc c List.mem_cons_self
      · rw [literalBlock_content hstart hcontent, hread]
        rfl
      · rw [literalBlock_newline, hread]
        rfl

end Literal

section Choice

variable {cs rest : List Char}

/-- What the text of a style must be like. Between double quotes any text can be written. -/
def Suits (cs : List Char) : Writer.Style → Prop
  | .basicLine => True
  | .basicBlock => True
  | .literalLine => '\'' ∉ cs ∧ ∀ c ∈ cs, isContent c = true
  | .literalBlock => Writer.hasTriple '\'' cs = false ∧ Plain cs

theorem suits_style (cs : List Char) : Suits cs (Writer.style cs) := by
  rw [Writer.style]
  split_ifs with hbasic hliteral hblock hraw
  · trivial
  · simp only [Bool.and_eq_true, Bool.not_eq_true', Writer.isMultiline,
      List.contains_eq_mem, decide_eq_false_iff_not] at hliteral
    obtain ⟨⟨hcontrol, hquote⟩, hline⟩ := hliteral
    refine ⟨hquote, fun c hc => ?_⟩
    exact (plain_of_hasControl hcontrol c hc).resolve_right fun h => hline (h ▸ hc)
  · trivial
  · simp only [Bool.and_eq_true, Bool.not_eq_true'] at hraw
    exact ⟨hraw.2, plain_of_hasControl hraw.1⟩
  · trivial
  · trivial

/-- A line end after the opening quotes is not part of the text, and none of it is lost. -/
theorem dropNewline_block {q : Char} {multiline : Bool} {body : List Char}
    (h : multiline = false → newline? (body ++ q :: q :: q :: rest) = none) :
    dropNewline ((Writer.block q multiline body ++ rest).drop 3) =
      body ++ q :: q :: q :: rest := by
  cases multiline with
  | true => simp [Writer.block, dropNewline, newline?]
  | false => simp [Writer.block, dropNewline, h rfl]

theorem startsTriple_block (q : Char) (multiline : Bool) (body rest : List Char) :
    startsTriple q (Writer.block q multiline body ++ rest) = true := by
  simp [Writer.block, startsTriple]

theorem startsTriple_of_ne {q c : Char} (h : c ≠ q) : startsTriple q (c :: cs) = false := by
  simp [startsTriple, h]

/-- A written text begins no tripled quotes with the quote before it. -/
theorem startsTriple_escapeAll (hr : rest.head? ≠ some '"') (cs : List Char) :
    startsTriple '"' ('"' :: (Writer.escapeAll false 0 cs ++ '"' :: rest)) = false := by
  apply Bool.eq_false_iff.mpr
  intro h
  obtain ⟨-, hsecond, hthird⟩ := head?_of_startsTriple h
  cases cs with
  | nil => exact hr hthird
  | cons c cs =>
    by_cases hq : c = '"'
    · rw [hq, escapeAll_cons_escape (by decide)] at hsecond
      cases hsecond
    · rw [escapeAll_cons_of_ne hq, List.append_assoc] at hsecond
      exact (escapes_escaped false c).head?_ne hq _ hsecond

theorem text?_basicLine (hr : rest.head? ≠ some '"') (cs : List Char) :
    text? (Writer.quotedAs cs .basicLine ++ rest) = some (cs, rest) := by
  have hform : Writer.quotedAs cs .basicLine ++ rest =
      '"' :: (Writer.escapeAll false 0 cs ++ '"' :: rest) := by
    simp [Writer.quotedAs]
  have hsingle : startsTriple '\'' ('"' :: (Writer.escapeAll false 0 cs ++ '"' :: rest)) = false :=
    startsTriple_of_ne (by decide)
  rw [hform, text?, startsTriple_escapeAll hr, hsingle]
  exact basicLine_escapeAll cs rest

theorem text?_literalLine (hr : rest.head? ≠ some '\'') (h : Suits cs .literalLine) :
    text? (Writer.quotedAs cs .literalLine ++ rest) = some (cs, rest) := by
  have hform : Writer.quotedAs cs .literalLine ++ rest = '\'' :: (cs ++ '\'' :: rest) := by
    simp [Writer.quotedAs]
  have hdouble : startsTriple '"' ('\'' :: (cs ++ '\'' :: rest)) = false :=
    startsTriple_of_ne (by decide)
  have hsingle : startsTriple '\'' ('\'' :: (cs ++ '\'' :: rest)) = false := by
    apply Bool.eq_false_iff.mpr
    intro ht
    obtain ⟨-, hsecond, hthird⟩ := head?_of_startsTriple ht
    cases cs with
    | nil => exact hr hthird
    | cons c cs => exact h.1 (Option.some.inj hsecond ▸ List.mem_cons_self)
  rw [hform, text?, hdouble, hsingle]
  exact literalLine_append h.1 h.2 rest

theorem newline?_escapeAll (h : '\n' ∉ cs) :
    newline? (Writer.escapeAll true 0 cs ++ '"' :: rest) = none := by
  cases cs with
  | nil => exact newline?_eq_none (by decide) (by decide)
  | cons c cs =>
    by_cases hq : c = '"'
    · rw [hq, escapeAll_cons_quote (by decide)]
      exact newline?_eq_none (by decide) (by decide)
    · rw [escapeAll_cons_of_ne hq, List.append_assoc]
      exact (escapes_escaped true c).newline?_eq_none (fun hc => h (hc ▸ List.mem_cons_self)) _

theorem text?_basicBlock (hr : rest.head? ≠ some '"') (cs : List Char) :
    text? (Writer.quotedAs cs .basicBlock ++ rest) = some (cs, rest) := by
  have hdrop : dropNewline ((Writer.quotedAs cs .basicBlock ++ rest).drop 3) =
      Writer.escapeAll true 0 cs ++ '"' :: '"' :: '"' :: rest :=
    dropNewline_block fun hline => newline?_escapeAll (by simpa [Writer.isMultiline] using hline)
  have hstart : startsTriple '"' (Writer.quotedAs cs .basicBlock ++ rest) = true :=
    startsTriple_block _ _ _ _
  rw [text?, if_pos hstart, hdrop]
  exact basicBlock_escapeAll hr (Nat.zero_le 2) cs

theorem text?_literalBlock (hr : rest.head? ≠ some '\'') (h : Suits cs .literalBlock) :
    text? (Writer.quotedAs cs .literalBlock ++ rest) = some (cs, rest) := by
  have hdrop : dropNewline ((Writer.quotedAs cs .literalBlock ++ rest).drop 3) =
      cs ++ '\'' :: '\'' :: '\'' :: rest := by
    apply dropNewline_block
    intro hline
    cases cs with
    | nil => exact newline?_eq_none (by decide) (by decide)
    | cons c cs =>
      have hc : isContent c = true := by
        refine (h.2 c List.mem_cons_self).resolve_right ?_
        rintro rfl
        simp [Writer.isMultiline] at hline
      obtain ⟨hn, hreturn⟩ := ne_of_isContent hc
      exact newline?_eq_none hn hreturn
  have hdouble : startsTriple '"' (Writer.quotedAs cs .literalBlock ++ rest) = false :=
    startsTriple_of_ne (by decide)
  have hsingle : startsTriple '\'' (Writer.quotedAs cs .literalBlock ++ rest) = true :=
    startsTriple_block _ _ _ _
  rw [text?, hdouble, if_neg Bool.false_ne_true, if_pos hsingle, hdrop]
  exact literalBlock_append hr h.1 h.2

theorem Suits.text?_eq {style : Writer.Style} (h : Suits cs style)
    (hdouble : rest.head? ≠ some '"') (hsingle : rest.head? ≠ some '\'') :
    text? (Writer.quotedAs cs style ++ rest) = some (cs, rest) := by
  cases style with
  | basicLine => exact text?_basicLine hdouble cs
  | literalLine => exact text?_literalLine hsingle h
  | basicBlock => exact text?_basicBlock hdouble cs
  | literalBlock => exact text?_literalBlock hsingle h

/-- Any text reads back from the quotes that are chosen for it. -/
theorem text?_text (s : String) (rest : List Char) :
    text? ((Writer.text s).toList ++ '\n' :: rest) = some (s.toList, '\n' :: rest) := by
  rw [Writer.text, String.toList_ofList]
  exact (suits_style s.toList).text?_eq (by simp) (by simp)

end Choice

end HostCall.Toml
