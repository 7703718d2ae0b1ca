import HostCall.Proofs.Value.Grammar

/-!
# Quotes by bytes

A text in UTF-8 may be cut only between characters. A byte below 128 stands for itself wherever it
occurs, so a token whose first and last bytes are one quote begins and ends with that quote, and
cutting both bytes off never cuts a character in two.
-/

namespace HostCall.Text

/-- The bytes of a text in UTF-8. -/
def bytes (cs : List Char) : List UInt8 := cs.flatMap String.utf8EncodeChar

/-- Whether a byte begins a character; the others continue one. -/
def beginsChar (b : UInt8) : Bool := b < 0x80 || 0xC0 ≤ b

/-- Whether a position lies between characters or at an end. -/
def isBoundary (bs : List UInt8) (i : Nat) : Bool :=
  i == 0 || i == bs.length || bs[i]?.any beginsChar

/-- The bytes between two positions. There are none to give if the positions are out of order or
cut a character in two. -/
def cut? (bs : List UInt8) (start stop : Nat) : Option (List UInt8) :=
  if start ≤ stop ∧ isBoundary bs start ∧ isBoundary bs stop then
    some ((bs.take stop).drop start)
  else none

/-- Whether a byte is a quote. -/
def isQuote (b : UInt8) : Bool := b = 0x22 || b = 0x27

/-- Takes equal quotes off both ends, if a text has them. The outer answer is missing if that has
to cut a character in two. -/
def unquoteBytes? (bs : List UInt8) : Option (Option (List UInt8)) :=
  if bs.length < 2 then some none
  else if bs.head?.any isQuote ∧ bs.head? = bs.getLast? then
    (cut? bs 1 (bs.length - 1)).map some
  else some none

section Encoding

variable {c : Char} {b : UInt8}

theorem utf8EncodeChar_of_le (h : c.toNat ≤ 127) :
    String.utf8EncodeChar c = [UInt8.ofNat c.toNat] := by
  have hc : c.val.toNat ≤ 127 := h
  rw [String.utf8EncodeChar, if_pos hc]
  rfl

/-- A character past 127 has no byte below 128. -/
theorem le_of_mem_utf8EncodeChar (h : 127 < c.toNat) (hb : b ∈ String.utf8EncodeChar c) :
    128 ≤ b.toNat := by
  have hc : ¬ c.val.toNat ≤ 127 := Nat.not_le_of_lt h
  rw [String.utf8EncodeChar, if_neg hc] at hb
  split at hb
  · simp only [List.mem_cons, List.not_mem_nil, or_false] at hb
    rcases hb with rfl | rfl <;> rw [UInt8.toNat_ofNat'] <;> omega
  · split at hb
    · simp only [List.mem_cons, List.not_mem_nil, or_false] at hb
      rcases hb with rfl | rfl | rfl <;> rw [UInt8.toNat_ofNat'] <;> omega
    · simp only [List.mem_cons, List.not_mem_nil, or_false] at hb
      rcases hb with rfl | rfl | rfl | rfl <;> rw [UInt8.toNat_ofNat'] <;> omega

/-- A byte below 128 is a character by itself. -/
theorem toNat_eq_of_mem_utf8EncodeChar (hb : b ∈ String.utf8EncodeChar c)
    (hlt : b.toNat < 128) : c.toNat = b.toNat := by
  by_cases h : c.toNat ≤ 127
  · rw [utf8EncodeChar_of_le h, List.mem_singleton] at hb
    rw [hb, UInt8.toNat_ofNat']
    omega
  · have hle := le_of_mem_utf8EncodeChar (Nat.lt_of_not_le h) hb
    omega

theorem beginsChar_iff : beginsChar b = true ↔ b.toNat < 128 ∨ 192 ≤ b.toNat := by
  simp [beginsChar, UInt8.lt_iff_toNat_lt, UInt8.le_iff_toNat_le]

/-- The first byte of a character is one that begins a character. -/
theorem head?_utf8EncodeChar (c : Char) :
    ∃ b, (String.utf8EncodeChar c).head? = some b ∧ beginsChar b = true := by
  simp only [beginsChar_iff]
  rw [String.utf8EncodeChar]
  split
  · refine ⟨_, rfl, ?_⟩
    rw [UInt8.toNat_ofNat']
    omega
  · split
    · refine ⟨_, rfl, ?_⟩
      rw [UInt8.toNat_ofNat']
      omega
    · split <;>
      · refine ⟨_, rfl, ?_⟩
        rw [UInt8.toNat_ofNat']
        omega

end Encoding

section Unquote

variable {cs inner : List Char} {q : Char}

theorem bytes_cons (c : Char) (cs : List Char) :
    bytes (c :: cs) = String.utf8EncodeChar c ++ bytes cs := rfl

theorem bytes_append (cs ds : List Char) : bytes (cs ++ ds) = bytes cs ++ bytes ds :=
  List.flatMap_append

/-- The byte of a quote. -/
theorem exists_quote_byte (hq : q = '"' ∨ q = '\'') :
    ∃ b, String.utf8EncodeChar q = [b] ∧ isQuote b = true ∧ beginsChar b = true := by
  rcases hq with rfl | rfl
  · exact ⟨0x22, rfl, rfl, rfl⟩
  · exact ⟨0x27, rfl, rfl, rfl⟩

theorem toNat_lt_of_isQuote {b : UInt8} (hb : isQuote b = true) : b.toNat < 128 := by
  simp only [isQuote, Bool.or_eq_true, decide_eq_true_eq] at hb
  rcases hb with rfl | rfl <;> decide

/-- A byte that is a quote occurs only in the character that is that quote. -/
theorem quote_of_mem {b : UInt8} {c : Char} (hb : isQuote b = true)
    (hc : b ∈ String.utf8EncodeChar c) : c = '"' ∨ c = '\'' := by
  have hnat := toNat_eq_of_mem_utf8EncodeChar hc (toNat_lt_of_isQuote hb)
  simp only [isQuote, Bool.or_eq_true, decide_eq_true_eq] at hb
  rcases hb with rfl | rfl
  · exact .inl (Char.toNat_inj.mp hnat)
  · exact .inr (Char.toNat_inj.mp hnat)

theorem beginsChar_head?_bytes {b : UInt8} (hb : beginsChar b = true) (cs : List Char) :
    ((bytes cs ++ [b]).head?.any beginsChar) = true := by
  cases cs with
  | nil => exact hb
  | cons c cs =>
    obtain ⟨d, hd, hbegins⟩ := head?_utf8EncodeChar c
    rw [bytes_cons, List.append_assoc, List.head?_append, hd]
    exact hbegins

/-- Cutting one byte off each end of a text in quotes leaves what is between the quotes. -/
theorem cut?_quoted {b : UInt8} (hb : beginsChar b = true) (inner : List Char) :
    cut? (b :: (bytes inner ++ [b])) 1 ((bytes inner).length + 1) = some (bytes inner) := by
  have hstart : isBoundary (b :: (bytes inner ++ [b])) 1 = true := by
    have hhead := beginsChar_head?_bytes hb inner
    rw [List.head?_eq_getElem?] at hhead
    rw [isBoundary, List.getElem?_cons_succ, hhead, Bool.or_true]
  have hstop : isBoundary (b :: (bytes inner ++ [b])) ((bytes inner).length + 1) = true := by
    simp [isBoundary, hb]
  rw [cut?, if_pos ⟨Nat.le_add_left 1 _, hstart, hstop⟩, List.take_succ_cons, List.drop_succ_cons,
    List.drop_zero, List.take_left]

theorem exists_of_head?_bytes {b : UInt8} (h : (bytes cs).head? = some b) :
    ∃ c rest, cs = c :: rest ∧ b ∈ String.utf8EncodeChar c := by
  cases cs with
  | nil => cases h
  | cons c rest =>
    obtain ⟨d, hd, -⟩ := head?_utf8EncodeChar c
    rw [bytes_cons, List.head?_append, hd] at h
    exact ⟨c, rest, rfl, Option.some.inj h ▸ List.mem_of_mem_head? hd⟩

theorem exists_of_getLast?_bytes {b : UInt8} (h : (bytes cs).getLast? = some b) :
    ∃ c rest, cs = rest ++ [c] ∧ b ∈ String.utf8EncodeChar c := by
  cases hlast : cs.getLast? with
  | none =>
    rw [List.getLast?_eq_none_iff.mp hlast] at h
    cases h
  | some c =>
    obtain ⟨rest, rfl⟩ := List.getLast?_eq_some_iff.mp hlast
    have hc : bytes [c] = String.utf8EncodeChar c := List.append_nil _
    have hsome := List.getLast?_eq_some_getLast (String.utf8EncodeChar_ne_nil (c := c))
    rw [bytes_append, hc, List.getLast?_append, hsome, Option.some_or, ← hsome] at h
    exact ⟨c, rest, rfl, List.mem_of_getLast? h⟩

/-- A text of two bytes or more whose first and last bytes are one quote is in quotes. -/
theorem exists_quoted_of_ends {b : UInt8} (hquote : isQuote b = true)
    (hhead : (bytes cs).head? = some b) (hlast : (bytes cs).getLast? = some b)
    (hlength : ¬ (bytes cs).length < 2) : ∃ inner, Literal.Quoted cs inner := by
  obtain ⟨c, rest, rfl, hc⟩ := exists_of_head?_bytes hhead
  obtain ⟨d, front, hfront, hd⟩ := exists_of_getLast?_bytes hlast
  have hq := quote_of_mem hquote hc
  have hlt := toNat_lt_of_isQuote hquote
  obtain rfl : c = d := Char.toNat_inj.mp <|
    (toNat_eq_of_mem_utf8EncodeChar hc hlt).trans (toNat_eq_of_mem_utf8EncodeChar hd hlt).symm
  cases front with
  | nil =>
    -- one quote alone is one byte long
    obtain ⟨e, hbytes, -, -⟩ := exists_quote_byte hq
    rw [hfront, List.nil_append, bytes_cons, hbytes] at hlength
    exact absurd (by simp [bytes]) hlength
  | cons e inner =>
    obtain ⟨rfl, hrest⟩ := List.cons.inj hfront
    exact ⟨inner, c, hq, hrest ▸ rfl⟩

/-- Taking quotes off by bytes never cuts a character in two, and leaves the bytes of what taking
them off by characters leaves. -/
theorem unquoteBytes?_bytes (cs : List Char) :
    unquoteBytes? (bytes cs) = some ((Literal.unquote? cs).map bytes) := by
  cases hu : Literal.unquote? cs with
  | some inner =>
    obtain ⟨q, hq, rfl⟩ := Literal.unquote?_eq_some_iff.mp hu
    obtain ⟨b, hbytes, hquote, hbegins⟩ := exists_quote_byte hq
    have hall : bytes (q :: (inner ++ [q])) = b :: (bytes inner ++ [b]) := by
      rw [bytes_cons, bytes_append, hbytes]
      simp [bytes, hbytes]
    have hlength : (b :: (bytes inner ++ [b])).length = (bytes inner).length + 2 := by simp
    have hlast : (b :: (bytes inner ++ [b])).getLast? = some b := by
      rw [← List.cons_append, List.getLast?_concat]
    rw [hall, unquoteBytes?, hlength, if_neg (by omega), hlast, if_pos ⟨hquote, rfl⟩]
    exact congrArg (Option.map some) (cut?_quoted hbegins inner)
  | none =>
    have hnot := Literal.unquote?_eq_none_iff.mp hu
    rw [unquoteBytes?]
    split
    · rfl
    · rename_i hlength
      split
      · rename_i hends
        obtain ⟨b, hb, hquote⟩ := (Option.any_eq_true _ _).mp hends.1
        obtain ⟨inner, hinner⟩ :=
          exists_quoted_of_ends hquote hb (hends.2.symm.trans hb) hlength
        exact absurd hinner (hnot inner)
      · rfl

end Unquote

end HostCall.Text
