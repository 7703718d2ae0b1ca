import HostCall.Proofs.Number.Nearest
import HostCall.Proofs.Text.Bytes

/-!
# Reading tokens

A token stands for exactly one value, which is the one that is read. Quotes may be taken off byte
by byte, since no character is cut in two. A reader of floating point numbers that also knows words
for infinity and for what is not a number comes to the same, if only tokens with a digit are given
to it. A decimal is read as the number nearest to it, so never as something that is not a number.
-/

namespace HostCall

namespace Literal

open Sign (Signed Fits)

/-- A word for infinity or for what is not a number, in letters of either case. -/
def word? (negative : Bool) (cs : List Char) : Option Binary64 :=
  let small := cs.map Char.toLower
  if small = "inf".toList ∨ small = "infinity".toList then
    some (.ofMagnitude negative Binary64.infinityMagnitude)
  else if small = "nan".toList then some (.ofMagnitude negative Binary64.quietMagnitude)
  else none

/-- A floating point number in the grammar that has words beside decimals. -/
def float? (cs : List Char) : Option Binary64 :=
  let (negative, body) := Sign.split cs
  match word? negative body with
  | some x => some x
  | none => decimal? cs

section Digits

variable {cs : List Char}

theorem Mantissa.exists_digit {mantissa whole fraction : List Char}
    (h : Mantissa mantissa whole fraction) : ∃ c ∈ mantissa, c.isDigit = true := by
  obtain ⟨c, hc⟩ := List.exists_mem_of_ne_nil _ h.ne_nil
  cases h with
  | whole digits =>
    rw [List.append_nil] at hc
    exact ⟨c, hc, digits.2 c hc⟩
  | pointed digits =>
    refine ⟨c, ?_, digits.2 c hc⟩
    rcases List.mem_append.mp hc with hc | hc
    · exact List.mem_append_left _ hc
    · exact List.mem_append_right _ (List.mem_cons_of_mem _ hc)

theorem Decimal.exists_digit {x : Binary64} (h : Decimal cs x) : ∃ c ∈ cs, c.isDigit = true := by
  cases h with
  | intro sign digits _ =>
    obtain ⟨c, hc, hd⟩ := digits.exists_digit
    refine ⟨c, ?_, hd⟩
    cases sign with
    | plus | minus => exact List.mem_cons_of_mem _ (List.mem_append_left _ hc)
    | bare => exact List.mem_append_left _ hc

/-- Splitting a sign off takes no digit away. -/
theorem mem_split_of_isDigit {c : Char} (hc : c ∈ cs) (hd : c.isDigit = true) :
    c ∈ (Sign.split cs).2 := by
  have sign := Sign.signed_split cs
  generalize (Sign.split cs).1 = negative at sign
  generalize (Sign.split cs).2 = body at sign ⊢
  cases sign with
  | plus | minus =>
    rcases List.mem_cons.mp hc with rfl | hc
    · cases hd
    · exact hc
  | bare => exact hc

/-- No word has a digit. -/
theorem word?_eq_none {c : Char} (hc : c ∈ cs) (hd : c.isDigit = true) (negative : Bool) :
    word? negative cs = none := by
  have hlow : c.toLower = c := by
    apply dif_neg
    -- digits stand before the capital letters
    intro hupper
    simp only [Char.isDigit, Bool.and_eq_true, decide_eq_true_eq] at hd
    exact absurd (UInt32.le_trans hupper.1 hd.2) (by decide)
  have hmem : c ∈ cs.map Char.toLower := List.mem_map.mpr ⟨c, hc, hlow⟩
  have hno : ∀ word : String, word.toList.any Char.isDigit = false →
      cs.map Char.toLower ≠ word.toList := by
    intro word hword heq
    rw [heq] at hmem
    exact List.any_eq_false.mp hword c hmem hd
  have hinf := hno "inf" (by rfl)
  have hinfinity := hno "infinity" (by rfl)
  have hnan := hno "nan" (by rfl)
  simp only [word?, hinf, hinfinity, hnan, or_self, if_false]

/-- A digit is all that a token needs for words to be out of question. -/
theorem decimal?_eq_guarded (cs : List Char) :
    decimal? cs = if cs.any Char.isDigit then float? cs else none := by
  split
  · rename_i hany
    obtain ⟨c, hc, hd⟩ := List.any_eq_true.mp hany
    rw [float?]
    simp only [word?_eq_none (mem_split_of_isDigit hc hd) hd]
  · rename_i hany
    rw [decimal?_eq_none_iff]
    intro x hx
    obtain ⟨c, hc, hd⟩ := hx.exists_digit
    exact hany (List.any_eq_true.mpr ⟨c, hc, hd⟩)

end Digits

/-- An integer that does not fit 64 bits is a decimal as well. -/
theorem Integer.exists_decimal {cs : List Char} {n : Int} (h : Integer cs n) :
    ∃ x, Decimal cs x := by
  cases h with
  | @intro ds negative sign digits =>
    rw [← List.append_nil ds] at sign
    exact ⟨_, .intro sign (.whole digits) .absent⟩

/-- The sign of a decimal and the amount that its digits and its exponent spell. -/
inductive Amounts : List Char → Bool → ℚ → Prop
  | intro {cs mantissa tail whole fraction : List Char} {negative : Bool} {power : Int}
      (sign : Signed cs negative (mantissa ++ tail)) (digits : Mantissa mantissa whole fraction)
      (exponent : Exponent tail power) :
      Amounts cs negative
        (Nat.ofDigitChars 10 (whole ++ fraction) 0 * 10 ^ (power - fraction.length))

theorem Decimal.exists_amounts {cs : List Char} {x : Binary64} (h : Decimal cs x) :
    ∃ negative amount, Amounts cs negative amount := by
  cases h with
  | intro sign digits exponent => exact ⟨_, _, .intro sign digits exponent⟩

/-- However a decimal is taken apart, the number that is read for it is nearest to its amount. -/
theorem Decimal.isNearest {cs : List Char} {x : Binary64} (h : Decimal cs x) {negative : Bool}
    {amount : ℚ} (ha : Amounts cs negative amount) :
    x.isNegative = negative ∧ x.IsNearest (amount * 2 ^ Binary64.lowestPlace) := by
  cases ha with
  | intro sign digits exponent =>
    have hx := decimal?_eq_some_iff.mpr h
    rw [decimal?_eq_some_iff.mpr (.intro sign digits exponent)] at hx
    cases Option.some.inj hx
    exact Binary64.isNearest_ofDecimal negative _ _

/-- What is read from a token. -/
structure ReadByGrammar (token : String) : Prop where
  denotes : ∀ v, ofToken token = v ↔ Denotes token v
  unique : ∃! v, Denotes token v
  /-- Taking quotes off by bytes never cuts a character in two, and does the same. -/
  unquoted : Text.unquoteBytes? (Text.bytes token.toList) =
    some ((unquote? token.toList).map Text.bytes)
  /-- With a digit in the token it does not matter that there are words for numbers. -/
  guarded : decimal? token.toList =
    if token.toList.any Char.isDigit then float? token.toList else none
  unfit : ∀ n, Integer token.toList n → ¬ Fits n → ∃ x, ofToken token = .double x
  number : ∀ x, ofToken token = .double x →
    x.isNaN = false ∧ ∃ c ∈ token.toList, c.isDigit = true
  /-- A decimal is read as the number nearest to it. -/
  nearest : ∀ x, ofToken token = .double x →
    (∃ negative amount, Amounts token.toList negative amount) ∧
      ∀ negative amount, Amounts token.toList negative amount →
        x.isNegative = negative ∧ x.IsNearest (amount * 2 ^ Binary64.lowestPlace)

theorem readByGrammar (token : String) : ReadByGrammar token where
  denotes _ := ofToken_eq_iff
  unique := ⟨ofToken token, denotes_ofToken token, fun _ hv => hv.ofToken_eq.symm⟩
  unquoted := Text.unquoteBytes?_bytes token.toList
  guarded := decimal?_eq_guarded token.toList
  unfit n hn hfit := by
    obtain ⟨x, hx⟩ := hn.exists_decimal
    have hall : ∀ k, Integer token.toList k → ¬ Fits k := fun k hk => by
      rwa [← hn.unique hk]
    exact ⟨x, (Denotes.double hn.not_keyword hn.not_quoted hall hx).ofToken_eq⟩
  number x hx := by
    cases ofToken_eq_iff.mp hx with
    | keyword word => cases word
    | double _ _ _ decimal =>
      obtain ⟨negative, amount, amounts⟩ := decimal.exists_amounts
      exact ⟨(decimal.isNearest amounts).2.number, decimal.exists_digit⟩
  nearest x hx := by
    cases ofToken_eq_iff.mp hx with
    | keyword word => cases word
    | double _ _ _ decimal =>
      exact ⟨decimal.exists_amounts, fun _ _ amounts => decimal.isNearest amounts⟩

end Literal

end HostCall
