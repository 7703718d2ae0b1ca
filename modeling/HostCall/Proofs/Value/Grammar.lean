import HostCall.Value.Literal
import Mathlib.Data.List.TakeWhile

/-!
# The grammar of literals

A token is a keyword, a text in equal quotes, an integer of 64 bits, a decimal, or none of these,
and the first of them that it is decides. Each kind is a relation between tokens and what they
stand for; reading a token answers exactly what the relations say.
-/

namespace HostCall

namespace Sign

/-- A text is a body with a sign in front of it, or without one. -/
inductive Signed : List Char → Bool → List Char → Prop
  | plus (body : List Char) : Signed ('+' :: body) false body
  | minus (body : List Char) : Signed ('-' :: body) true body
  | bare (body : List Char) : Signed body false body

theorem signed_split (cs : List Char) : Signed cs (split cs).1 (split cs).2 := by
  fun_cases split cs with
  | case1 rest => exact .minus rest
  | case2 rest => exact .plus rest
  | case3 => exact .bare cs

/-- A body that does not begin with a sign is what splitting a sign off leaves. -/
theorem Signed.split_eq {cs body : List Char} {negative : Bool} (h : Signed cs negative body)
    (hplus : body.head? ≠ some '+') (hminus : body.head? ≠ some '-') :
    split cs = (negative, body) := by
  cases h with
  | plus => rfl
  | minus => rfl
  | bare =>
    fun_cases split cs with
    | case1 rest => exact absurd rfl hminus
    | case2 rest => exact absurd rfl hplus
    | case3 => rfl

/-- An integer fits 64 bits. -/
def Fits (n : Int) : Prop := -0x8000000000000000 ≤ n ∧ n ≤ 0x7FFFFFFFFFFFFFFF

theorem long?_eq_some_iff {n : Int} {l : Int64} :
    long? n = some l ↔ Fits n ∧ Int64.ofInt n = l := by
  have hmin : Int64.minValue.toInt = -0x8000000000000000 := rfl
  have hmax : Int64.maxValue.toInt = 0x7FFFFFFFFFFFFFFF := rfl
  rw [long?, Fits, hmin, hmax]
  split
  · rename_i h
    simp only [Option.some.injEq, h, and_self, true_and]
  · rename_i h
    simp only [reduceCtorEq, h, false_and]

end Sign

namespace Literal

open Sign (Signed Fits)

/-- One or more digits of ASCII. -/
def Digits (cs : List Char) : Prop := cs ≠ [] ∧ ∀ c ∈ cs, c.isDigit = true

/-- An integer: digits, perhaps behind a sign. -/
inductive Integer : List Char → Int → Prop
  | intro {cs ds : List Char} {negative : Bool} (sign : Signed cs negative ds)
      (digits : Digits ds) : Integer cs (Sign.apply negative (Nat.ofDigitChars 10 ds 0))

/-- The exponent of a decimal, or nothing. -/
inductive Exponent : List Char → Int → Prop
  | absent : Exponent [] 0
  | marked {e : Char} {cs : List Char} {n : Int} (mark : e = 'e' ∨ e = 'E')
      (power : Integer cs n) : Exponent (e :: cs) n

/-- The digits of a decimal before and behind its point, which may be left out with all that is
behind it. There is at least one digit. -/
inductive Mantissa : List Char → List Char → List Char → Prop
  | whole {ds : List Char} (digits : Digits ds) : Mantissa ds ds []
  | pointed {whole fraction : List Char} (digits : Digits (whole ++ fraction)) :
      Mantissa (whole ++ '.' :: fraction) whole fraction

/-- A decimal and the floating point number nearest to it. -/
inductive Decimal : List Char → Binary64 → Prop
  | intro {cs mantissa tail whole fraction : List Char} {negative : Bool} {power : Int}
      (sign : Signed cs negative (mantissa ++ tail)) (digits : Mantissa mantissa whole fraction)
      (exponent : Exponent tail power) :
      Decimal cs (.ofDecimal negative (Nat.ofDigitChars 10 (whole ++ fraction) 0)
        (power - fraction.length))

/-- A text between two equal quotes, which are its first and its last character. -/
def Quoted (cs inner : List Char) : Prop :=
  ∃ q, (q = '"' ∨ q = '\'') ∧ cs = q :: (inner ++ [q])

/-- A token with a meaning of its own. -/
inductive Keyword : String → Value → Prop
  | yes : Keyword "true" (.bool true)
  | no : Keyword "false" (.bool false)
  | null : Keyword "null" .null

/-- What a token stands for. The kinds are tried in order, so each excludes those before it. -/
inductive Denotes (token : String) : Value → Prop
  | keyword {v : Value} (word : Keyword token v) : Denotes token v
  | quoted {inner : List Char} (plain : ∀ v, ¬ Keyword token v)
      (quotes : Quoted token.toList inner) : Denotes token (.text (String.ofList inner))
  | long {n : Int} (plain : ∀ v, ¬ Keyword token v) (unquoted : ∀ i, ¬ Quoted token.toList i)
      (integer : Integer token.toList n) (fits : Fits n) : Denotes token (.long (Int64.ofInt n))
  | double {x : Binary64} (plain : ∀ v, ¬ Keyword token v)
      (unquoted : ∀ i, ¬ Quoted token.toList i)
      (unfit : ∀ n, Integer token.toList n → ¬ Fits n) (decimal : Decimal token.toList x) :
      Denotes token (.double x)
  | bare (plain : ∀ v, ¬ Keyword token v) (unquoted : ∀ i, ¬ Quoted token.toList i)
      (unfit : ∀ n, Integer token.toList n → ¬ Fits n)
      (other : ∀ x, ¬ Decimal token.toList x) : Denotes token (.text token)

theorem digits_toDigits (n : Nat) : Digits (Nat.toDigits 10 n) :=
  ⟨Nat.toDigits_ne_nil, fun _ hc => Nat.isDigit_of_mem_toDigits (by decide) (by decide) hc⟩

section Readers

variable {cs : List Char}

theorem natural?_eq_some_iff {n : Nat} :
    natural? cs = some n ↔ Digits cs ∧ Nat.ofDigitChars 10 cs 0 = n := by
  have hd : cs ≠ [] ∧ cs.all Char.isDigit = true ↔ Digits cs := by rw [Digits, List.all_eq_true]
  rw [natural?]
  split
  · rename_i h
    simp only [Option.some.injEq, hd.mp h, true_and]
  · rename_i h
    simp only [reduceCtorEq, mt hd.mpr h, false_and]

theorem Digits.head?_ne (h : Digits cs) {c : Char} (hc : c.isDigit = false) :
    cs.head? ≠ some c := by
  intro hh
  have hd := h.2 c (List.mem_of_mem_head? hh)
  rw [hc] at hd
  cases hd

theorem Digits.exists_cons (h : Digits cs) :
    ∃ d ds, cs = d :: ds ∧ d.isDigit = true ∧ ∀ e ∈ ds, e.isDigit = true := by
  obtain ⟨d, ds, rfl⟩ := List.exists_cons_of_ne_nil h.1
  exact ⟨d, ds, rfl, h.2 d List.mem_cons_self, fun e he => h.2 e (List.mem_cons_of_mem d he)⟩

theorem integer?_eq_some_iff {n : Int} : integer? cs = some n ↔ Integer cs n := by
  rw [integer?]
  simp only [Option.map_eq_some_iff, natural?_eq_some_iff]
  constructor
  · rintro ⟨_, ⟨hd, rfl⟩, rfl⟩
    exact .intro (Sign.signed_split cs) hd
  · intro h
    cases h with
    | intro sign digits =>
      rw [sign.split_eq (digits.head?_ne rfl) (digits.head?_ne rfl)]
      exact ⟨_, ⟨digits, rfl⟩, rfl⟩

theorem long?_eq_some_iff {l : Int64} :
    long? cs = some l ↔ ∃ n, Integer cs n ∧ Fits n ∧ Int64.ofInt n = l := by
  simp only [long?, Option.bind_eq_some_iff, integer?_eq_some_iff, Sign.long?_eq_some_iff]

theorem long?_eq_none_iff : long? cs = none ↔ ∀ n, Integer cs n → ¬ Fits n := by
  rw [Option.eq_none_iff_forall_ne_some]
  simp only [ne_eq, long?_eq_some_iff]
  constructor
  · intro h n hn hf
    exact h _ ⟨n, hn, hf, rfl⟩
  · rintro h l ⟨n, hn, hf, -⟩
    exact h n hn hf

theorem exponent?_eq_some_iff {n : Int} : exponent? cs = some n ↔ Exponent cs n := by
  constructor
  · intro h
    cases cs with
    | nil =>
      cases Option.some.inj h
      exact .absent
    | cons e rest =>
      rw [exponent?] at h
      split at h
      · rename_i mark
        exact .marked mark (integer?_eq_some_iff.mp h)
      · cases h
  · intro h
    cases h with
    | absent => rfl
    | marked mark power =>
      rw [exponent?, if_pos mark]
      exact integer?_eq_some_iff.mpr power

theorem unquote?_eq_some_iff {inner : List Char} :
    unquote? cs = some inner ↔ Quoted cs inner := by
  constructor
  · intro h
    cases cs with
    | nil => cases h
    | cons q rest =>
      rw [unquote?] at h
      split at h
      · rename_i hq
        obtain ⟨inner', rfl⟩ := List.getLast?_eq_some_iff.mp hq.2
        rw [List.dropLast_concat] at h
        exact ⟨q, hq.1, by rw [Option.some.inj h]⟩
      · cases h
  · rintro ⟨q, hq, rfl⟩
    have hlast : (inner ++ [q]).getLast? = some q := by simp
    rw [unquote?, if_pos ⟨hq, hlast⟩, List.dropLast_concat]

theorem unquote?_eq_none_iff : unquote? cs = none ↔ ∀ inner, ¬ Quoted cs inner := by
  rw [Option.eq_none_iff_forall_ne_some]
  simp only [ne_eq, unquote?_eq_some_iff]

/-- Digits end where something else begins. -/
theorem span_digits {ds rest : List Char} (hd : ∀ c ∈ ds, c.isDigit = true)
    (hr : ∀ c ∈ rest.head?, c.isDigit = false) :
    (ds ++ rest).takeWhile Char.isDigit = ds ∧ (ds ++ rest).dropWhile Char.isDigit = rest := by
  have htake : rest.takeWhile Char.isDigit = [] := by
    cases rest with
    | nil => rfl
    | cons c rest => exact List.takeWhile_cons_of_neg (by simp [hr c rfl])
  have hdrop : rest.dropWhile Char.isDigit = rest := by
    cases rest with
    | nil => rfl
    | cons c rest => exact List.dropWhile_cons_of_neg (by simp [hr c rfl])
  rw [List.takeWhile_append_of_pos hd, List.dropWhile_append_of_pos hd, htake, hdrop,
    List.append_nil]
  exact ⟨rfl, rfl⟩

theorem splitFraction_of_ne_point (h : cs.head? ≠ some '.') : splitFraction cs = ([], cs) := by
  fun_cases splitFraction cs with
  | case1 rest => exact absurd rfl h
  | case2 => rfl

theorem Exponent.head?_ne {power : Int} (h : Exponent cs power) {c : Char} (he : c ≠ 'e')
    (hE : c ≠ 'E') : cs.head? ≠ some c := by
  cases h with
  | absent => simp
  | marked mark _ =>
    intro hc
    rcases mark with rfl | rfl
    · exact he (Option.some.inj hc).symm
    · exact hE (Option.some.inj hc).symm

theorem Exponent.head?_not_isDigit {power : Int} (h : Exponent cs power) :
    ∀ c ∈ cs.head?, c.isDigit = false := by
  cases h with
  | absent => simp
  | marked mark _ =>
    intro c hc
    rcases mark with rfl | rfl <;> cases hc <;> rfl

/-- A mantissa with an exponent behind it is read digit by digit. -/
theorem Mantissa.scan {mantissa tail whole fraction : List Char} {power : Int}
    (h : Mantissa mantissa whole fraction) (ht : Exponent tail power) :
    (mantissa ++ tail).takeWhile Char.isDigit = whole ∧
      splitFraction ((mantissa ++ tail).dropWhile Char.isDigit) = (fraction, tail) := by
  cases h with
  | whole digits =>
    obtain ⟨htake, hdrop⟩ := span_digits digits.2 ht.head?_not_isDigit
    rw [hdrop]
    exact ⟨htake, splitFraction_of_ne_point (ht.head?_ne (by decide) (by decide))⟩
  | pointed digits =>
    have hw : ∀ c ∈ whole, c.isDigit = true := fun c hc =>
      digits.2 c (List.mem_append_left _ hc)
    have hf : ∀ c ∈ fraction, c.isDigit = true := fun c hc =>
      digits.2 c (List.mem_append_right _ hc)
    have hpoint : ∀ c, ('.' :: (fraction ++ tail)).head? = some c → c.isDigit = false := by
      intro c hc
      cases hc
      rfl
    obtain ⟨htake, hdrop⟩ := span_digits hw hpoint
    obtain ⟨hfraction, htail⟩ := span_digits hf ht.head?_not_isDigit
    rw [List.append_assoc, List.cons_append, hdrop, splitFraction, hfraction, htail]
    exact ⟨htake, rfl⟩

/-- Digits and what is split off behind them are a mantissa, if there is any digit. -/
theorem exists_mantissa {whole after fraction rest : List Char}
    (hw : ∀ c ∈ whole, c.isDigit = true) (hs : splitFraction after = (fraction, rest))
    (hne : whole ++ fraction ≠ []) :
    ∃ mantissa, whole ++ after = mantissa ++ rest ∧ Mantissa mantissa whole fraction := by
  revert hs
  fun_cases splitFraction after with
  | case1 behind =>
    intro hs
    obtain ⟨rfl, rfl⟩ := Prod.mk.inj hs
    refine ⟨whole ++ '.' :: behind.takeWhile Char.isDigit, ?_, .pointed ⟨hne, fun c hc => ?_⟩⟩
    · rw [List.append_assoc, List.cons_append, List.takeWhile_append_dropWhile]
    · rcases List.mem_append.mp hc with hc | hc
      · exact hw c hc
      · exact List.mem_takeWhile_imp hc
  | case2 =>
    intro hs
    obtain ⟨rfl, rfl⟩ := Prod.mk.inj hs
    rw [List.append_nil] at hne
    exact ⟨whole, rfl, .whole ⟨hne, hw⟩⟩

theorem decimal?_of_parts {body fraction rest : List Char} {negative : Bool}
    (hsign : Sign.split cs = (negative, body))
    (hs : splitFraction (body.dropWhile Char.isDigit) = (fraction, rest)) :
    decimal? cs =
      if body.takeWhile Char.isDigit ++ fraction = [] then none
      else
        (exponent? rest).map fun power =>
          Binary64.ofDecimal negative
            (Nat.ofDigitChars 10 (body.takeWhile Char.isDigit ++ fraction) 0)
            (power - fraction.length) := by
  rw [decimal?, hsign]
  simp only [hs]

theorem Mantissa.ne_nil {mantissa whole fraction : List Char}
    (h : Mantissa mantissa whole fraction) : whole ++ fraction ≠ [] := by
  cases h with
  | whole digits => exact fun hnil => digits.1 (List.append_eq_nil_iff.mp hnil).1
  | pointed digits => exact digits.1

theorem Mantissa.head?_ne {mantissa whole fraction : List Char}
    (h : Mantissa mantissa whole fraction) (tail : List Char) {c : Char} (hc : c.isDigit = false)
    (hp : c ≠ '.') : (mantissa ++ tail).head? ≠ some c := by
  cases h with
  | whole digits =>
    rw [List.head?_append, List.head?_eq_some_head digits.1, Option.some_or,
      ← List.head?_eq_some_head digits.1]
    exact digits.head?_ne hc
  | pointed digits =>
    cases whole with
    | nil => exact fun hh => hp (Option.some.inj hh).symm
    | cons d whole =>
      intro hh
      have hd := digits.2 d List.mem_cons_self
      rw [Option.some.inj hh, hc] at hd
      cases hd

theorem decimal?_eq_some_iff {x : Binary64} : decimal? cs = some x ↔ Decimal cs x := by
  constructor
  · intro h
    have sign := Sign.signed_split cs
    cases hsign : Sign.split cs with
    | mk negative body =>
      cases hs : splitFraction (body.dropWhile Char.isDigit) with
      | mk fraction rest =>
        rw [decimal?_of_parts hsign hs] at h
        rw [hsign] at sign
        split at h
        · cases h
        · rename_i hne
          obtain ⟨power, hpower, rfl⟩ := Option.map_eq_some_iff.mp h
          obtain ⟨mantissa, hbody, digits⟩ :=
            exists_mantissa (fun c hc => List.mem_takeWhile_imp hc) hs hne
          rw [List.takeWhile_append_dropWhile] at hbody
          rw [hbody] at sign
          exact .intro sign digits (exponent?_eq_some_iff.mp hpower)
  · intro h
    cases h with
    | intro sign digits exponent =>
      have hsign := sign.split_eq (digits.head?_ne _ rfl (by decide))
        (digits.head?_ne _ rfl (by decide))
      obtain ⟨hwhole, hfraction⟩ := digits.scan exponent
      rw [decimal?_of_parts hsign hfraction, hwhole, if_neg digits.ne_nil,
        exponent?_eq_some_iff.mpr exponent]
      rfl

theorem decimal?_eq_none_iff : decimal? cs = none ↔ ∀ x, ¬ Decimal cs x := by
  rw [Option.eq_none_iff_forall_ne_some]
  simp only [ne_eq, decimal?_eq_some_iff]

end Readers

section Token

variable {token : String} {n : Int}

/-- A text stands for one integer only. -/
theorem Integer.unique {cs : List Char} {m : Int} (hn : Integer cs n) (hm : Integer cs m) :
    n = m :=
  Option.some.inj ((integer?_eq_some_iff.mpr hn).symm.trans (integer?_eq_some_iff.mpr hm))

theorem Integer.head {cs : List Char} (h : Integer cs n) :
    ∃ c rest, cs = c :: rest ∧ (c = '+' ∨ c = '-' ∨ c.isDigit = true) := by
  cases h with
  | intro sign digits =>
    cases sign with
    | plus => exact ⟨_, _, rfl, .inl rfl⟩
    | minus => exact ⟨_, _, rfl, .inr (.inl rfl)⟩
    | bare =>
      obtain ⟨c, rest, rfl⟩ := List.exists_cons_of_ne_nil digits.1
      exact ⟨c, rest, rfl, .inr (.inr (digits.2 c List.mem_cons_self))⟩

theorem Integer.not_keyword (h : Integer token.toList n) (v : Value) : ¬ Keyword token v := by
  obtain ⟨c, rest, hcs, hc⟩ := h.head
  intro hv
  cases hv <;>
  · obtain ⟨rfl, -⟩ := List.cons.inj hcs
    exact absurd hc (by decide)

theorem Integer.not_quoted (h : Integer token.toList n) (inner : List Char) :
    ¬ Quoted token.toList inner := by
  obtain ⟨c, rest, hcs, hc⟩ := h.head
  rintro ⟨q, hq, he⟩
  obtain ⟨rfl, -⟩ := List.cons.inj (hcs.symm.trans he)
  rcases hq with rfl | rfl <;> exact absurd hc (by decide)

/-- A token that is no keyword is read by its characters. -/
theorem ofToken_of_plain (h : ∀ v, ¬ Keyword token v) :
    ofToken token =
      match unquote? token.toList with
      | some inner => .text (String.ofList inner)
      | none =>
        match long? token.toList with
        | some n => .long n
        | none =>
          match decimal? token.toList with
          | some x => .double x
          | none => .text token := by
  have hyes : token ≠ "true" := fun e => h (.bool true) (e ▸ Keyword.yes)
  have hno : token ≠ "false" := fun e => h (.bool false) (e ▸ Keyword.no)
  have hnull : token ≠ "null" := fun e => h .null (e ▸ Keyword.null)
  exact (if_neg hyes).trans ((if_neg hno).trans (if_neg hnull))

/-- Every token stands for what is read from it. -/
theorem denotes_ofToken (token : String) : Denotes token (ofToken token) := by
  by_cases hword : ∃ v, Keyword token v
  · obtain ⟨v, hv⟩ := hword
    cases hv with
    | yes => exact .keyword .yes
    | no => exact .keyword .no
    | null => exact .keyword .null
  have plain : ∀ v, ¬ Keyword token v := fun v hv => hword ⟨v, hv⟩
  rw [ofToken_of_plain plain]
  cases hq : unquote? token.toList with
  | some inner => exact .quoted plain (unquote?_eq_some_iff.mp hq)
  | none =>
    have unquoted := unquote?_eq_none_iff.mp hq
    cases hl : long? token.toList with
    | some l =>
      obtain ⟨n, integer, fits, rfl⟩ := long?_eq_some_iff.mp hl
      exact .long plain unquoted integer fits
    | none =>
      have unfit := long?_eq_none_iff.mp hl
      cases hd : decimal? token.toList with
      | some x => exact .double plain unquoted unfit (decimal?_eq_some_iff.mp hd)
      | none => exact .bare plain unquoted unfit (decimal?_eq_none_iff.mp hd)

/-- A token stands for one value only. -/
theorem Denotes.ofToken_eq {v : Value} (h : Denotes token v) : ofToken token = v := by
  cases h with
  | keyword word => cases word <;> rfl
  | quoted plain quotes => rw [ofToken_of_plain plain, unquote?_eq_some_iff.mpr quotes]
  | long plain unquoted integer fits =>
    rw [ofToken_of_plain plain, unquote?_eq_none_iff.mpr unquoted,
      long?_eq_some_iff.mpr ⟨_, integer, fits, rfl⟩]
  | double plain unquoted unfit decimal =>
    rw [ofToken_of_plain plain, unquote?_eq_none_iff.mpr unquoted, long?_eq_none_iff.mpr unfit,
      decimal?_eq_some_iff.mpr decimal]
  | bare plain unquoted unfit other =>
    rw [ofToken_of_plain plain, unquote?_eq_none_iff.mpr unquoted, long?_eq_none_iff.mpr unfit,
      decimal?_eq_none_iff.mpr other]

theorem ofToken_eq_iff {v : Value} : ofToken token = v ↔ Denotes token v :=
  ⟨fun h => h ▸ denotes_ofToken token, Denotes.ofToken_eq⟩

end Token

end Literal

end HostCall
