import Std.Data.TreeMap.Lemmas
import HostCall.Proofs.Text.Bytes

/-!
# The order of bytes

Texts are ordered by the code points of their characters. The order of their bytes in UTF-8 is the
same: a character that takes more bytes begins with a greater one, and characters of equally many
bytes differ first in the digits that weigh most.
-/

namespace HostCall.Text

/-- A text stands before another one in the order of their bytes in UTF-8. -/
def Precedes (a b : String) : Prop := List.Lex (· < ·) a.toUTF8.data.toList b.toUTF8.data.toList

/-- What is left of a number without its last digits in base 64. -/
def leading : Nat → Nat → Nat
  | 0, n => n
  | k + 1, n => leading k (n / 64)

/-- A number as bytes: one for what is left of it without its last digits, and one for each of
these digits. The first byte bears a mark. -/
def numeral (mark : Nat) : Nat → Nat → List UInt8
  | 0, n => [UInt8.ofNat (n + mark)]
  | k + 1, n => numeral mark k (n / 64) ++ [UInt8.ofNat (n % 64 + 0x80)]

/-- The number of bytes that continue the first byte of a character. -/
def continuing (n : Nat) : Nat :=
  if n ≤ 0x7F then 0 else if n ≤ 0x7FF then 1 else if n ≤ 0xFFFF then 2 else 3

/-- The mark of a byte that some bytes continue. -/
def mark : Nat → Nat
  | 0 => 0
  | 1 => 0xC0
  | 2 => 0xE0
  | 3 => 0xF0
  | _ => 0xF8

section Numerals

variable {μ ν k l m n : Nat}

private theorem ofNat_lt (h : m < n) (hn : n < 256) : UInt8.ofNat m < UInt8.ofNat n := by
  rw [UInt8.lt_iff_toNat_lt, UInt8.toNat_ofNat', UInt8.toNat_ofNat']
  omega

theorem numeral_eq_cons (μ k n : Nat) :
    ∃ rest, numeral μ k n = UInt8.ofNat (leading k n + μ) :: rest := by
  induction k generalizing n with
  | zero => exact ⟨[], rfl⟩
  | succ k ih =>
    obtain ⟨rest, hrest⟩ := ih (n / 64)
    exact ⟨rest ++ [UInt8.ofNat (n % 64 + 0x80)], by rw [numeral, hrest]; rfl⟩

theorem lex_of_leading (h : leading k m + μ < leading l n + ν) (hn : leading l n + ν < 256)
    (s t : List UInt8) : List.Lex (· < ·) (numeral μ k m ++ s) (numeral ν l n ++ t) := by
  obtain ⟨rest, hrest⟩ := numeral_eq_cons μ k m
  obtain ⟨rest', hrest'⟩ := numeral_eq_cons ν l n
  rw [hrest, hrest']
  exact .rel (ofNat_lt h hn)

/-- Numerals of equally many digits are in the order of their numbers. -/
theorem lex_numeral (h : m < n) (hn : leading k n + μ < 256) (s t : List UInt8) :
    List.Lex (· < ·) (numeral μ k m ++ s) (numeral μ k n ++ t) := by
  induction k generalizing m n s t with
  | zero => exact .rel (ofNat_lt (Nat.add_lt_add_right h μ) hn)
  | succ k ih =>
    rw [numeral, numeral, List.append_assoc, List.append_assoc]
    by_cases hrest : m / 64 < n / 64
    · exact ih hrest hn _ _
    · -- the numbers differ in the last digit alone
      have heq : m / 64 = n / 64 := by omega
      rw [heq]
      apply List.append_left_lt
      exact .rel (ofNat_lt (by omega) (by omega))

private theorem mark_le (k : Nat) : mark k ≤ 0xF8 := by
  unfold mark
  split <;> decide

theorem mark_le_mark (h : k ≤ l) : mark k ≤ mark l := by
  have hstep : ∀ j, mark j ≤ mark (j + 1)
    | 0 | 1 | 2 | 3 => by decide
    | _ + 4 => Nat.le_refl 0xF8
  induction h with
  | refl => exact Nat.le_refl _
  | step _ ih => exact Nat.le_trans ih (hstep _)

/-- First bytes that more bytes continue are greater. -/
theorem leading_lt_mark (hn : n < 0x110000) :
    leading (continuing n) n + mark (continuing n) < mark (continuing n + 1) := by
  unfold continuing
  repeat' split
  all_goals
    simp only [leading, mark]
    omega

theorem continuing_le (h : m ≤ n) : continuing m ≤ continuing n := by
  unfold continuing
  repeat' split
  all_goals omega

end Numerals

variable {c d : Char} {cs ds : List Char} {a b : String}

private theorem toNat_lt (c : Char) : c.toNat < 0x110000 := by
  have h := c.valid
  simp only [UInt32.isValidChar, Nat.isValidChar] at h
  show c.val.toNat < _
  omega

theorem utf8EncodeChar_eq (c : Char) :
    String.utf8EncodeChar c = numeral (mark (continuing c.toNat)) (continuing c.toNat) c.toNat := by
  have hmax := toNat_lt c
  have hval : c.val.toNat = c.toNat := rfl
  rw [String.utf8EncodeChar, hval]
  unfold continuing
  generalize c.toNat = n at hmax
  by_cases h1 : n ≤ 0x7F
  · rw [if_pos h1, if_pos h1]
    rfl
  rw [if_neg h1, if_neg h1]
  by_cases h2 : n ≤ 0x7FF
  · rw [if_pos h2, if_pos h2, Nat.mod_eq_of_lt (show n / 64 < 32 by omega)]
    rfl
  rw [if_neg h2, if_neg h2]
  by_cases h3 : n ≤ 0xFFFF
  · rw [if_pos h3, if_pos h3, Nat.mod_eq_of_lt (show n / 4096 < 16 by omega)]
    simp only [numeral, mark, Nat.div_div_eq_div_mul, List.cons_append, List.nil_append]
  · rw [if_neg h3, if_neg h3, Nat.mod_eq_of_lt (show n / 262144 < 8 by omega)]
    simp only [numeral, mark, Nat.div_div_eq_div_mul, List.cons_append, List.nil_append]

theorem lex_utf8EncodeChar (h : c < d) (s t : List UInt8) :
    List.Lex (· < ·) (String.utf8EncodeChar c ++ s) (String.utf8EncodeChar d ++ t) := by
  have hlt : c.toNat < d.toNat := h
  have hc := leading_lt_mark (toNat_lt c)
  have hd := leading_lt_mark (toNat_lt d)
  have hmax := mark_le (continuing d.toNat + 1)
  rw [utf8EncodeChar_eq, utf8EncodeChar_eq]
  by_cases heq : continuing c.toNat = continuing d.toNat
  · -- both have equally many bytes, with the same mark on the first one
    rw [heq]
    exact lex_numeral hlt (by omega) s t
  · -- the greater one has more bytes, and its first one bears a greater mark
    have hle := continuing_le (Nat.le_of_lt hlt)
    have hmark : mark (continuing c.toNat + 1) ≤ mark (continuing d.toNat) :=
      mark_le_mark (by omega)
    exact lex_of_leading (by omega) (by omega) s t

theorem lex_bytes (h : List.Lex (· < ·) cs ds) : List.Lex (· < ·) (bytes cs) (bytes ds) := by
  induction h with
  | nil =>
    rename_i d ds
    obtain ⟨b, hb, -⟩ := head?_utf8EncodeChar d
    obtain ⟨rest, hrest⟩ := List.head?_eq_some_iff.mp hb
    rw [bytes_cons, hrest]
    exact .nil
  | rel hlt => exact lex_utf8EncodeChar hlt _ _
  | cons _ ih => exact List.append_left_lt ih

theorem toList_toUTF8 (a : String) : a.toUTF8.data.toList = bytes a.toList := by
  rw [String.toUTF8_eq_toByteArray, ← String.utf8Encode_toList, List.utf8Encode]
  exact List.toList_data_toByteArray

theorem precedes_of_lt (h : a < b) : Precedes a b := by
  rw [Precedes, toList_toUTF8, toList_toUTF8]
  exact lex_bytes h

/-- Texts are in the same order by their bytes and by their code points. -/
theorem precedes_iff : Precedes a b ↔ a < b := by
  constructor
  · intro hab
    by_cases hlt : a < b
    · exact hlt
    · by_cases heq : a = b
      · subst heq
        exact absurd hab (List.lex_irrefl UInt8.lt_irrefl _)
      · have hba : b < a := String.not_le.mp fun hle => heq (String.le_antisymm hle hlt)
        exact absurd hab (List.lex_asymm UInt8.lt_asymm (precedes_of_lt hba))
  · exact precedes_of_lt

section Keys

variable {β : Type} (t : Std.TreeMap String β)

/-- The keys of a table stand in the order of their bytes. -/
theorem pairwise_keys : t.keys.Pairwise Precedes := by
  apply Std.TreeMap.ordered_keys.imp
  intro a b hab
  exact precedes_of_lt (compareOfLessAndEq_eq_lt.mp hab)

theorem nodup_keys : t.keys.Nodup := by
  apply (pairwise_keys t).imp
  intro a b hab heq
  subst heq
  exact String.lt_irrefl a (precedes_iff.mp hab)

end Keys

end HostCall.Text
