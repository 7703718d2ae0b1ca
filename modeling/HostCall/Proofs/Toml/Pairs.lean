import HostCall.Proofs.Toml.Quoted
import HostCall.Proofs.Toml.Whole
import HostCall.Toml.Document

/-!
# Documents of pairs

A document that is written pair by pair, each under a bare key of its own, is read as exactly the
entries it was written for, in their order.
-/

namespace HostCall.Toml

/-- A text that is read as an item where a line ends behind it. -/
def Reads (value : String) (item : Item) : Prop :=
  ∀ rest, value? maxDepth (skipGap (value.toList ++ '\n' :: rest)) = some (item, '\n' :: rest)

section Values

variable {c : Char} {cs rest : List Char} {value : String} {item : Item}

theorem skipGap_cons (h : isGap c = false) : skipGap (c :: cs) = c :: cs := by
  rw [skipGap, List.dropWhile_cons_of_neg (by simp [h])]

/-- What begins like a scalar is read as one. -/
theorem reads_of_scalarValue? (hlist : value.toList = c :: cs)
    (hc : isGap c = false ∧ c ≠ '[' ∧ c ≠ '\x7b')
    (h : ∀ rest, scalarValue? (value.toList ++ '\n' :: rest) = some (item, '\n' :: rest)) :
    Reads value item := by
  intro rest
  have hread := h rest
  rw [hlist, List.cons_append] at hread ⊢
  rw [skipGap_cons hc.1, maxDepth, value?, if_neg hc.2.1, if_neg hc.2.2, hread]

theorem reads_boolean (b : Bool) : Reads (Writer.boolean b) (.boolean b) := by
  cases b with
  | true => exact reads_of_scalarValue? rfl (by decide) fun _ => rfl
  | false => exact reads_of_scalarValue? rfl (by decide) fun _ => rfl

/-- A quoted text begins with a quote. -/
theorem exists_cons_text (s : String) :
    ∃ q body, (Writer.text s).toList = q :: body ∧ (q = '"' ∨ q = '\'') := by
  rw [Writer.text, String.toList_ofList]
  cases Writer.style s.toList with
  | basicLine => exact ⟨'"', _, rfl, .inl rfl⟩
  | literalLine => exact ⟨'\'', _, rfl, .inr rfl⟩
  | basicBlock => exact ⟨'"', _, rfl, .inl rfl⟩
  | literalBlock => exact ⟨'\'', _, rfl, .inr rfl⟩

theorem reads_text (s : String) : Reads (Writer.text s) (.text s) := by
  obtain ⟨q, body, hlist, hq⟩ := exists_cons_text s
  refine reads_of_scalarValue? hlist ?_ fun rest => ?_
  · rcases hq with rfl | rfl <;> decide
  · have hread := text?_text s rest
    rw [hlist, List.cons_append] at hread ⊢
    rw [scalarValue?, if_pos hq, hread]
    exact congrArg (fun t => some (Item.text t, '\n' :: rest)) String.ofList_toList

/-- A natural number that is written is read as the integer of 64 bits that it is. -/
theorem reads_natural {n : Nat} (h : Writer.natural? n = some value) :
    Reads value (.integer (Int64.ofInt n)) := by
  rw [Writer.natural?] at h
  split at h
  · rename_i hle
    obtain rfl := Option.some.inj h
    have hlist : (toString n).toList = Nat.toDigits 10 n := Nat.toList_repr
    have hfits : Int64.minValue.toInt ≤ Sign.apply false n ∧
        Sign.apply false n ≤ Int64.maxValue.toInt :=
      ⟨Int.le_trans (by decide) (Int.natCast_nonneg n), hle⟩
    have hinteger : integer? false n = some (.integer (Int64.ofInt n)) := by
      rw [integer?, Sign.long?, if_pos hfits]
      rfl
    obtain ⟨d, ds, hds, hd, -⟩ := (Literal.digits_toDigits n).exists_cons
    refine reads_of_scalarValue? (hlist.trans hds) ?_ fun rest => ?_
    · refine ⟨?_, ne_of_isDigit hd (by decide), ne_of_isDigit hd (by decide)⟩
      simp [isGap, ne_of_isDigit hd (c := ' ') (by decide),
        ne_of_isDigit hd (c := '\t') (by decide)]
    · rw [hlist, scalarValue?_toDigits, hinteger]
      rfl
  · cases h

end Values

section Lines

variable {key value text : String} {item : Item} {entries : Entries}

/-- A key that is written without quotes. -/
def Bare (key : String) : Prop := key.toList.isEmpty = false ∧ key.toList.all isBare = true

instance (key : String) : Decidable (Bare key) := inferInstanceAs (Decidable (_ ∧ _))

theorem ne_of_isBare {c d : Char} (hc : isBare c = true) (hd : isBare d = false) : c ≠ d :=
  fun h => by simp [h, hd] at hc

/-- A bare key begins with a character that means nothing else at the front of a line. -/
theorem Bare.exists_cons (h : Bare key) :
    ∃ c cs, key.toList = c :: cs ∧ isGap c = false ∧ ∀ d, isBare d = false → c ≠ d := by
  obtain ⟨c, cs, hlist⟩ := List.exists_cons_of_ne_nil (List.isEmpty_eq_false_iff.mp h.1)
  have hc : isBare c = true := List.all_eq_true.mp h.2 c (hlist ▸ List.mem_cons_self)
  refine ⟨c, cs, hlist, ?_, fun _ => ne_of_isBare hc⟩
  simp [isGap, ne_of_isBare hc (d := ' ') (by decide), ne_of_isBare hc (d := '\t') (by decide)]

theorem keyPart?_bare (h : Bare key) (rest : List Char) :
    keyPart? (key.toList ++ ' ' :: rest) = some (key, skipGap rest) := by
  have hnil : key.toList ≠ [] := List.isEmpty_eq_false_iff.mp h.1
  have hall : ∀ c ∈ key.toList, isBare c = true := List.all_eq_true.mp h.2
  have htake : (key.toList ++ ' ' :: rest).takeWhile isBare = key.toList := by
    rw [List.takeWhile_append_of_pos hall, List.takeWhile_cons_of_neg (by decide), List.append_nil]
  have hdrop : (key.toList ++ ' ' :: rest).dropWhile isBare = ' ' :: rest := by
    rw [List.dropWhile_append_of_pos hall, List.dropWhile_cons_of_neg (by decide)]
  obtain ⟨c, cs, hlist, hc, hne⟩ := h.exists_cons
  have hgap : skipGap (key.toList ++ ' ' :: rest) = key.toList ++ ' ' :: rest := by
    rw [hlist]
    exact skipGap_cons hc
  have hline : line? (key.toList ++ ' ' :: rest) = none := by
    rw [hlist, List.cons_append, line?]
    · exact fun _ hcons => hne '"' (by decide) (List.cons.inj hcons).1
    · exact fun _ hcons => hne '\'' (by decide) (List.cons.inj hcons).1
  have hblank : skipGap (' ' :: rest) = skipGap rest := rfl
  simp only [keyPart?, hgap, hline, htake, hdrop, if_neg hnil, hblank, String.ofList_toList]

theorem path?_bare (h : Bare key) (rest : List Char) :
    path? (key.toList ++ ' ' :: '=' :: rest) = some (([], key), '=' :: rest) := by
  have hkey := keyPart?_bare h ('=' :: rest)
  have hequals : skipGap ('=' :: rest) = '=' :: rest := skipGap_cons rfl
  have hkeys : Reader.separated '.' keyPart? (key.toList ++ ' ' :: '=' :: rest) =
      ([key], '=' :: rest) := by
    rw [Reader.separated, hkey, hequals]
    rfl
  rw [path?, hkeys]
  rfl

theorem pair?_pair (hkey : Bare key) (hvalue : Reads value item) (rest : List Char) :
    pair? (value? maxDepth) ((Writer.pair key value).toList ++ rest) =
      some (([], key, item), '\n' :: rest) := by
  have hlist : (Writer.pair key value).toList ++ rest =
      key.toList ++ ' ' :: '=' :: ' ' :: (value.toList ++ '\n' :: rest) := by
    simp [Writer.pair]
  have hblank : skipGap (' ' :: (value.toList ++ '\n' :: rest)) =
      skipGap (value.toList ++ '\n' :: rest) := rfl
  rw [hlist, pair?]
  simp only [path?_bare hkey, Reader.expect, if_true, Option.bind_eq_bind, Option.bind_some,
    hblank, hvalue rest, Option.pure_def]

/-- A written pair is read as one line. -/
theorem line_pair (hkey : Bare key) (hvalue : Reads value item) (rest : List Char) :
    line ((Writer.pair key value).toList ++ rest) = some (.pair [] key item, rest) := by
  have hpair := pair?_pair hkey hvalue rest
  obtain ⟨c, cs, hlist, hc, hne⟩ := hkey.exists_cons
  obtain ⟨more, hfront⟩ : ∃ more, (Writer.pair key value).toList ++ rest = c :: more := by
    simp [Writer.pair, hlist]
  have hblank : newline? (c :: more) = none :=
    newline?_eq_none (hne _ (by decide)) (hne _ (by decide))
  rw [hfront] at hpair ⊢
  rw [line, skipGap_cons hc]
  split
  · rename_i h
    cases h
  · rename_i h
    exact absurd (List.cons.inj h).1 (hne _ (by decide))
  · rename_i h
    exact absurd (List.cons.inj h).1 (hne _ (by decide))
  · rename_i h
    exact absurd (List.cons.inj h).1 (hne _ (by decide))
  · rw [hblank, hpair]
    rfl

/-- The line of an entry of the root table. -/
def rootLine (entry : String × Item) : Line := .pair [] entry.1 entry.2

/-- A document that lists the entries of a table line by line. -/
inductive Lists : String → Entries → Prop
  | nil : Lists "" []
  | cons {key value text : String} {item : Item} {entries : Entries} (hkey : Bare key)
      (hvalue : Reads value item) (more : Lists text entries) :
      Lists (Writer.pair key value ++ text) ((key, item) :: entries)

theorem Lists.many_line (h : Lists text entries) :
    Reader.many line text.toList = (entries.map rootLine, []) := by
  induction h with
  | nil =>
    rw [Reader.many]
    rfl
  | @cons key value text item entries hkey hvalue _ ih =>
    have htaken : text.toList.length < ((Writer.pair key value).toList ++ text.toList).length := by
      simp only [Writer.pair, String.toList_append, List.length_append]
      have hend : "\n".toList.length = 1 := rfl
      omega
    rw [String.toList_append, Reader.many, line_pair hkey hvalue]
    simp only [if_pos htaken, ih]
    rfl

/-- A pair with a new bare key goes to the end of the root table while no header is in force. -/
theorem add?_pair {root : Entries} (h : root.lookup key = none) :
    Draft.add? ⟨root, []⟩ (.pair [] key item) = some ⟨root ++ [(key, item)], []⟩ := by
  simp only [Draft.add?, Draft.changeCurrent, Entries.changeAt, Entries.define?, Entries.add?, h]
  rfl

theorem foldlM_add? {root : Entries} (hkeys : ((root ++ entries).map Prod.fst).Nodup) :
    (entries.map rootLine).foldlM Draft.add? ⟨root, []⟩ =
      some ⟨root ++ entries, []⟩ := by
  induction entries generalizing root with
  | nil => simp
  | cons entry entries ih =>
    obtain ⟨key, item⟩ := entry
    have hnew : root.lookup key = none := by
      apply List.lookup_eq_none_iff.mpr
      intro other hother
      rw [List.map_append, List.map_cons] at hkeys
      have hne := (List.nodup_append.mp hkeys).2.2 other.1 (List.mem_map_of_mem hother) key
        List.mem_cons_self
      simpa using fun h : key = other.1 => hne h.symm
    rw [List.append_cons] at hkeys
    rw [List.map_cons, List.foldlM_cons, rootLine, add?_pair hnew,
      List.append_cons root (key, item) entries]
    exact ih hkeys

/-- A document of pairs with different keys is read as the entries that it lists. -/
theorem Lists.parse?_eq (h : Lists text entries) (hkeys : (entries.map Prod.fst).Nodup) :
    parse? text = some entries := by
  have hmark : (Reader.expect byteOrderMark text.toList).getD text.toList = text.toList := by
    cases h with
    | nil => rfl
    | cons hkey =>
      obtain ⟨c, cs, hlist, -, hne⟩ := hkey.exists_cons
      simp [Writer.pair, hlist, Reader.expect, hne byteOrderMark (by decide)]
  have hlines : lines? text.toList = some (entries.map rootLine) := by
    simp only [lines?, hmark, h.many_line]
    rfl
  rw [parse?, hlines]
  simp only [Option.bind_eq_bind, Option.bind_some]
  rw [foldlM_add? (by simpa using hkeys)]
  rfl

end Lines

end HostCall.Toml
