import HostCall.Proofs.Value.Grammar
import HostCall.Toml.Value

/-!
# Whole numbers read back

A natural number in base ten is no date, no time, no number of another base and no float, and it
does not begin with a needless zero; so what is written for it is read as the integer that it is.
-/

namespace HostCall.Toml

open Literal (Digits digits_toDigits)

section Fields

variable {ds rest : List Char}

theorem ne_of_isDigit {c d : Char} (hd : d.isDigit = true) (hc : c.isDigit = false) : d ≠ c :=
  fun h => by simp [h, hc] at hd

/-- A run of digits is followed by another digit or the line end wherever it is cut. -/
theorem expect_drop_eq_none (hds : ∀ d ∈ ds, d.isDigit = true) {c : Char}
    (hc : c.isDigit = false) (hn : c ≠ '\n') (count : Nat) :
    Reader.expect c (ds.drop count ++ '\n' :: rest) = none := by
  cases hleft : ds.drop count with
  | nil => simp [Reader.expect, hn.symm]
  | cons d left =>
    have hd : d.isDigit = true := hds d (List.mem_of_mem_drop (hleft ▸ List.mem_cons_self))
    simp [Reader.expect, ne_of_isDigit hd hc]

/-- A number of a date or a time that is found in front of a line end is cut off the digits. -/
theorem eq_drop_of_field? {count low high n : Nat} {left : List Char}
    (h : field? count low high (ds ++ '\n' :: rest) = some (n, left)) :
    left = ds.drop count ++ '\n' :: rest := by
  rw [field?] at h
  split at h
  · rename_i hfield
    obtain ⟨-, rfl⟩ := Prod.mk.inj (Option.some.inj h)
    have hle : count ≤ ds.length := by
      apply Nat.le_of_not_lt
      intro hlt
      have hmem : '\n' ∈ (ds ++ '\n' :: rest).take count := by
        obtain ⟨k, hk⟩ := Nat.exists_eq_add_of_lt (Nat.sub_pos_of_lt hlt)
        rw [List.take_append, hk, Nat.zero_add, List.take_succ_cons]
        exact List.mem_append_right _ List.mem_cons_self
      exact absurd (List.all_eq_true.mp hfield.2.1 _ hmem) (by decide)
    exact List.drop_append_of_le_length hle
  · cases h

theorem moment?_eq_none (hds : ∀ d ∈ ds, d.isDigit = true) :
    moment? (ds ++ '\n' :: rest) = none := by
  have hdate : date? (ds ++ '\n' :: rest) = none := by
    rw [date?]
    cases hyear : field? 4 0 9999 (ds ++ '\n' :: rest) with
    | none => rfl
    | some found =>
      obtain ⟨year, left⟩ := found
      rw [eq_drop_of_field? hyear]
      simp [expect_drop_eq_none hds]
  have htime : time? (ds ++ '\n' :: rest) = none := by
    rw [time?, hourMinute?]
    cases hhour : field? 2 0 23 (ds ++ '\n' :: rest) with
    | none => rfl
    | some found =>
      obtain ⟨hour, left⟩ := found
      rw [eq_drop_of_field? hhour]
      simp [expect_drop_eq_none hds]
  rw [moment?, hdate, htime]

end Fields

section Digits

variable {ds rest : List Char}

theorem moreDigits_append (hds : ∀ d ∈ ds, d.isDigit = true) :
    moreDigits Char.isDigit (ds ++ '\n' :: rest) = (ds, '\n' :: rest) := by
  induction ds with
  | nil => rfl
  | cons d ds ih =>
    have hd : d.isDigit = true := hds d List.mem_cons_self
    have hne : d ≠ '_' := ne_of_isDigit hd (by decide)
    rw [List.cons_append, moreDigits]
    · rw [if_pos hd, ih fun e he => hds e (List.mem_cons_of_mem d he)]
      rfl
    · exact fun _ _ h _ => hne h

theorem whole?_of_digits (hds : Digits ds) (hzero : ds.head? ≠ some '0') :
    whole? (ds ++ '\n' :: rest) = some (ds, '\n' :: rest) := by
  obtain ⟨d, more, rfl, hd, hmore⟩ := hds.exists_cons
  rw [List.cons_append, whole?]
  · rw [digits?, if_pos hd, moreDigits_append hmore]
    rfl
  · exact fun _ h => hzero (congrArg some (List.cons.inj h).1)

theorem digitChar_ne_zero : ∀ n < 10, 0 < n → Nat.digitChar n ≠ '0' := by decide

/-- A number above zero does not begin with the digit zero. -/
theorem head?_toDigits_ne {n : Nat} (hn : 0 < n) : (Nat.toDigits 10 n).head? ≠ some '0' := by
  induction n using Nat.strongRecOn with
  | ind n ih =>
    rw [Nat.toDigits_eq_if (by decide)]
    split
    · rename_i hlt
      exact fun h => digitChar_ne_zero n hlt hn (Option.some.inj h)
    · have hhead := ih (n / 10) (by omega) (by omega)
      obtain ⟨d, ds, hds, -⟩ := (digits_toDigits (n / 10)).exists_cons
      rw [hds] at hhead ⊢
      exact hhead

theorem whole?_toDigits (n : Nat) (rest : List Char) :
    whole? (Nat.toDigits 10 n ++ '\n' :: rest) = some (Nat.toDigits 10 n, '\n' :: rest) := by
  rcases Nat.eq_zero_or_pos n with rfl | hn
  · rfl
  · exact whole?_of_digits (digits_toDigits n) (head?_toDigits_ne hn)

end Digits

section Values

variable {ds rest : List Char}

/-- A base is marked by a letter, so digits alone are read in base ten. -/
theorem number?_of_digits (hds : Digits ds) :
    number? (ds ++ '\n' :: rest) = decimal? (ds ++ '\n' :: rest) := by
  obtain ⟨d, more, rfl, -, hmore⟩ := hds.exists_cons
  have hunmarked : ∀ c left, c.isDigit = false → c ≠ '\n' →
      d :: more ++ '\n' :: rest ≠ '0' :: c :: left := by
    intro c left hc hn h
    have htail : more ++ '\n' :: rest = c :: left := (List.cons.inj h).2
    have hexpect : Reader.expect c (more.drop 0 ++ '\n' :: rest) = none :=
      expect_drop_eq_none hmore hc hn 0
    rw [List.drop_zero, htail, Reader.expect, if_pos rfl] at hexpect
    cases hexpect
  rw [number?] <;> exact fun left => hunmarked _ left (by decide) (by decide)

theorem word_of_isDigit {c d : Char} (hd : d.isDigit = true) (hc : c.isDigit = false)
    (word cs : List Char) : Reader.word (c :: word) (d :: cs) = none := by
  rw [Reader.word, Reader.expect, if_neg (ne_of_isDigit hd hc)]
  rfl

/-- Digits are neither of the words that are numbers, and have no sign. -/
theorem decimal?_of_whole? {whole left : List Char} (hds : Digits ds)
    (h : whole? (ds ++ rest) = some (whole, left)) :
    decimal? (ds ++ rest) = afterWhole false whole left := by
  obtain ⟨d, more, rfl, hd, -⟩ := hds.exists_cons
  have hsplit : Sign.split (d :: (more ++ rest)) = (false, d :: (more ++ rest)) :=
    (Sign.Signed.bare _).split_eq (hds.head?_ne rfl) (hds.head?_ne rfl)
  rw [List.cons_append] at h ⊢
  rw [decimal?, hsplit]
  simp only [word_of_isDigit hd (c := 'i') (by decide), word_of_isDigit hd (c := 'n') (by decide),
    h, Option.bind_eq_bind, Option.bind_some]

theorem decimal?_toDigits (n : Nat) (rest : List Char) :
    decimal? (Nat.toDigits 10 n ++ '\n' :: rest) =
      (integer? false n).map (·, '\n' :: rest) := by
  rw [decimal?_of_whole? (digits_toDigits n) (whole?_toDigits n rest), afterWhole,
    if_neg (by decide), if_neg (by decide), Nat.ofDigitChars_ten_toDigits]

/-- Digits that end their line are neither a date nor a time. -/
theorem scalarValue?_of_digits (hds : Digits ds) :
    scalarValue? (ds ++ '\n' :: rest) = number? (ds ++ '\n' :: rest) := by
  have hmoment : moment? (ds ++ '\n' :: rest) = none := moment?_eq_none hds.2
  obtain ⟨d, more, rfl, hd, -⟩ := hds.exists_cons
  have hne : ∀ {c : Char}, c.isDigit = false → d ≠ c := ne_of_isDigit hd
  have hquote : ¬ (d = '"' ∨ d = '\'') := not_or.mpr ⟨hne (by decide), hne (by decide)⟩
  rw [List.cons_append] at hmoment ⊢
  rw [scalarValue?, if_neg hquote, if_neg (hne (by decide)), if_neg (hne (by decide)), hmoment]

theorem scalarValue?_toDigits (n : Nat) (rest : List Char) :
    scalarValue? (Nat.toDigits 10 n ++ '\n' :: rest) =
      (integer? false n).map (·, '\n' :: rest) := by
  rw [scalarValue?_of_digits (digits_toDigits n), number?_of_digits (digits_toDigits n),
    decimal?_toDigits]

end Values

end HostCall.Toml
