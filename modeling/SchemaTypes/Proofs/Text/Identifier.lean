import SchemaTypes.Text.Identifier
import SchemaTypes.Proofs.Text.Runs

/-!
# Written identifiers show where they end

A bare identifier ends before the first character that no bare identifier holds. A quoted one ends
at the first double quote that is not doubled. So the written form of a name tells the name,
whatever follows it, as long as what follows does not go on with a character of an identifier.

## Main definitions

* `EndsName`: what may follow a written identifier.
* `QuotesPaired`, `undoubleQuotes`: what stands between the quotes, and the name it stands for.
* `leading?`: the identifier at the front of a text.

## Main results

* `doubleQuotes_eq_iff`: the text with paired quotes that stands for a name.
* `leading?_quote_append`: a written identifier is read back, whatever follows it.
* `quote_bare_or_paired`: how a name is written, and that nothing of it is lost.
-/

namespace SchemaTypes.Text.Identifier

/-- The text is at its end, or goes on with a character that continues no written identifier. -/
def EndsName (rest : List Char) : Prop := ∀ c ∈ rest.head?, isBareTail c = false ∧ c ≠ '"'

/-- Double quotes stand in pairs of neighbours only. -/
inductive QuotesPaired : List Char → Prop
  | nil : QuotesPaired []
  | pair {rest : List Char} : QuotesPaired rest → QuotesPaired ('"' :: '"' :: rest)
  | other {c : Char} {rest : List Char} : c ≠ '"' → QuotesPaired rest → QuotesPaired (c :: rest)

/-- Writes each pair of double quotes once, from left to right. -/
def undoubleQuotes : List Char → List Char
  | [] => []
  | '"' :: '"' :: rest => '"' :: undoubleQuotes rest
  | c :: rest => c :: undoubleQuotes rest

/-- What stands before the first double quote that is not doubled, and what stands behind it, if
there is such a quote. -/
def closeQuoted? : List Char → Option (List Char × List Char)
  | [] => none
  | '"' :: '"' :: rest => (closeQuoted? rest).map (Prod.map (['"', '"'] ++ ·) id)
  | '"' :: rest => some ([], rest)
  | c :: rest => (closeQuoted? rest).map (Prod.map (c :: ·) id)

/-- The identifier that a text starts with, and what stands behind it. -/
def leading? : List Char → Option (String × List Char)
  | [] => none
  | c :: rest =>
    if c = '"' then
      (closeQuoted? rest).map (Prod.map (fun inside => String.ofList (undoubleQuotes inside)) id)
    else if isLower c then
      some (String.ofList ((c :: rest).takeWhile isBareTail), (c :: rest).dropWhile isBareTail)
    else none

theorem EndsName.cons {c : Char} (hc : isBareTail c = false) (hquote : c ≠ '"')
    (rest : List Char) : EndsName (c :: rest) := by
  intro d hd
  cases hd
  exact ⟨hc, hquote⟩

instance (rest : List Char) : Decidable (EndsName rest) :=
  decidable_of_iff (rest.head?.all (fun c => !isBareTail c && c != '"') = true)
    (by simp [EndsName, Option.all_eq_true])

theorem ne_quote_of_isLower {c : Char} (h : isLower c = true) : c ≠ '"' := by
  rintro rfl
  exact absurd h (by decide)

/-- Bare identifiers have at least one character, and a letter comes first. -/
theorem isBare_iff {name : List Char} :
    isBare name = true ↔ ∃ first more, name = first :: more ∧ isLower first = true ∧
      ∀ c ∈ more, isBareTail c = true := by
  cases name with
  | nil => simp [isBare]
  | cons first more => simp [isBare]

theorem isBareTail_of_isBare {name : List Char} (h : isBare name = true) :
    ∀ c ∈ name, isBareTail c = true := by
  obtain ⟨first, more, rfl, hlower, hmore⟩ := isBare_iff.1 h
  exact List.forall_mem_cons.2 ⟨by simp [isBareTail, hlower], hmore⟩

theorem doubleQuotes_cons_of_ne {c : Char} (h : c ≠ '"') (name : List Char) :
    doubleQuotes (c :: name) = c :: doubleQuotes name := by
  rw [doubleQuotes, List.flatMap_cons, if_neg h]
  rfl

theorem undoubleQuotes_cons_of_ne {c : Char} (h : c ≠ '"') (rest : List Char) :
    undoubleQuotes (c :: rest) = c :: undoubleQuotes rest := by
  rw [undoubleQuotes]
  simp [h]

theorem closeQuoted?_cons_of_ne {c : Char} (h : c ≠ '"') (rest : List Char) :
    closeQuoted? (c :: rest) = (closeQuoted? rest).map (Prod.map (c :: ·) id) := by
  rw [closeQuoted?] <;> simp [h]

/-- The quotes of a name are doubled in the one text with paired quotes that stands for it. -/
theorem doubleQuotes_eq_iff {name inside : List Char} :
    doubleQuotes name = inside ↔ QuotesPaired inside ∧ undoubleQuotes inside = name := by
  -- By induction on the name in one direction, and on the pairs in the other.
  constructor
  · rintro rfl
    induction name with
    | nil => exact ⟨.nil, rfl⟩
    | cons c name ih =>
      obtain ⟨hpaired, hname⟩ := ih
      by_cases hquote : c = '"'
      · subst hquote
        exact ⟨.pair hpaired, congrArg ('"' :: ·) hname⟩
      · rw [doubleQuotes_cons_of_ne hquote, undoubleQuotes_cons_of_ne hquote, hname]
        exact ⟨.other hquote hpaired, rfl⟩
  · rintro ⟨hpaired, rfl⟩
    induction hpaired with
    | nil => rfl
    | pair _ ih => exact congrArg (['"', '"'] ++ ·) ih
    | other hquote _ ih =>
      rw [undoubleQuotes_cons_of_ne hquote, doubleQuotes_cons_of_ne hquote, ih]

/-- Behind paired quotes, the first quote that is not doubled is the next one. -/
theorem closeQuoted?_append {inside rest : List Char} (hinside : QuotesPaired inside)
    (hrest : rest.head? ≠ some '"') :
    closeQuoted? (inside ++ '"' :: rest) = some (inside, rest) := by
  induction hinside with
  | nil =>
    rw [List.nil_append, closeQuoted?]
    rintro more rfl
    exact hrest rfl
  | pair _ ih =>
    rw [List.cons_append, List.cons_append, closeQuoted?, ih]
    rfl
  | other hquote _ ih =>
    rw [List.cons_append, closeQuoted?_cons_of_ne hquote, ih]
    rfl

theorem toList_quote (name : String) :
    (quote name).toList = if isBare name.toList then name.toList
      else '"' :: (doubleQuotes name.toList ++ ['"']) := by
  rw [quote]
  split <;> simp

/-- A written identifier starts with a lower-case letter or with a double quote. -/
theorem exists_toList_quote (name : String) :
    ∃ c rest, (quote name).toList = c :: rest ∧ (isLower c = true ∨ c = '"') := by
  rw [toList_quote]
  split
  · next hbare =>
    obtain ⟨first, more, hname, hlower, -⟩ := isBare_iff.1 hbare
    exact ⟨first, more, hname, .inl hlower⟩
  · exact ⟨'"', _, rfl, .inr rfl⟩

/-- A bare identifier is read up to the end of the run of its characters. -/
theorem leading?_bare_append {name : List Char} (hname : isBare name = true) {rest : List Char}
    (hrest : EndsName rest) : leading? (name ++ rest) = some (String.ofList name, rest) := by
  have hrun := isBareTail_of_isBare hname
  have hend : ∀ c ∈ rest.head?, isBareTail c = false := fun c hc => (hrest c hc).1
  have htake := takeWhile_append_of_head hrun hend
  have hdrop := dropWhile_append_of_head hrun hend
  obtain ⟨first, more, rfl, hlower, -⟩ := isBare_iff.1 hname
  rw [List.cons_append] at htake hdrop ⊢
  rw [leading?, if_neg (ne_quote_of_isLower hlower), if_pos hlower, htake, hdrop]

/-- A quoted identifier is read up to its last quote. -/
theorem leading?_quoted_append {inside : List Char} (hinside : QuotesPaired inside)
    {rest : List Char} (hrest : EndsName rest) :
    leading? ('"' :: (inside ++ '"' :: rest)) =
      some (String.ofList (undoubleQuotes inside), rest) := by
  have hend : rest.head? ≠ some '"' := fun hquote => (hrest '"' hquote).2 rfl
  rw [leading?, if_pos rfl, closeQuoted?_append hinside hend]
  rfl

/-- A written identifier is read back, and what follows it is left. -/
theorem leading?_quote_append (name : String) {rest : List Char} (hrest : EndsName rest) :
    leading? ((quote name).toList ++ rest) = some (name, rest) := by
  rw [toList_quote]
  split
  · next hbare => rw [leading?_bare_append hbare hrest, String.ofList_toList]
  · obtain ⟨hpaired, hname⟩ := doubleQuotes_eq_iff.1 (Eq.refl (doubleQuotes name.toList))
    rw [List.cons_append, List.append_assoc, List.singleton_append,
      leading?_quoted_append hpaired hrest, hname, String.ofList_toList]

/-- A written identifier tells the name, and what follows it. -/
theorem quote_append_inj {name name' : String} {rest rest' : List Char} (hrest : EndsName rest)
    (hrest' : EndsName rest') (h : (quote name).toList ++ rest = (quote name').toList ++ rest') :
    name = name' ∧ rest = rest' := by
  have hread := leading?_quote_append name hrest
  rw [h, leading?_quote_append name' hrest'] at hread
  simpa [eq_comm] using hread

theorem length_undoubleQuotes_le (inside : List Char) :
    (undoubleQuotes inside).length ≤ inside.length := by
  fun_induction undoubleQuotes inside with
  | case1 => exact Nat.le_refl 0
  | case2 rest ih =>
    simp only [List.length_cons]
    omega
  | case3 c rest _ ih => exact Nat.succ_le_succ ih

/-- A name that needs quotes is written between them. -/
theorem exists_quotesPaired {name : String} (h : ¬ isBare name.toList = true) :
    ∃ inside, (quote name).toList = '"' :: (inside ++ ['"']) ∧ QuotesPaired inside ∧
      undoubleQuotes inside = name.toList := by
  refine ⟨doubleQuotes name.toList, ?_, doubleQuotes_eq_iff.1 rfl⟩
  rw [toList_quote, if_neg h]

/-- The bare identifiers are the names that are written as they are. -/
theorem quote_eq_self_iff {name : String} : quote name = name ↔ isBare name.toList = true := by
  refine ⟨fun h => ?_, fun hbare => if_pos hbare⟩
  by_contra hbare
  -- With the quotes around it, more is written than the name has.
  obtain ⟨inside, hquote, -, hname⟩ := exists_quotesPaired hbare
  have hlength := length_undoubleQuotes_le inside
  rw [hname, ← h, hquote] at hlength
  simp only [List.length_cons, List.length_append] at hlength
  omega

/-- A name is written as it is if and only if it is a lower-case letter, followed by lower-case
letters, digits and underscores. Any other name is written between double quotes, with paired quotes
that stand for those of the name. The name, and what follows it, can be read back. -/
theorem quote_bare_or_paired (name : String) :
    (quote name = name ↔ ∃ first more, name.toList = first :: more ∧ isLower first = true ∧
      ∀ c ∈ more, isLower c = true ∨ isDigit c = true ∨ c = '_') ∧
    (quote name ≠ name → ∃ inside, (quote name).toList = '"' :: (inside ++ ['"']) ∧
      QuotesPaired inside ∧ undoubleQuotes inside = name.toList) ∧
    ∀ rest, EndsName rest → leading? ((quote name).toList ++ rest) = some (name, rest) := by
  have htail {c : Char} : isBareTail c = true ↔ isLower c = true ∨ isDigit c = true ∨ c = '_' := by
    simp [isBareTail, or_assoc]
  refine ⟨?_, fun hne => ?_, fun rest hrest => leading?_quote_append name hrest⟩
  · rw [quote_eq_self_iff, isBare_iff]
    simp only [htail]
  · exact exists_quotesPaired (mt quote_eq_self_iff.2 hne)

/-- A name that ends in a double quote and a newline needs quotes, and is read back with a dot and
another name behind it. -/
theorem quote_bare_or_paired_newline :
    quote "a\"\n" ≠ "a\"\n" ∧
    (∃ inside, "\"a\"\"\n\"".toList = '"' :: (inside ++ ['"']) ∧ QuotesPaired inside ∧
      undoubleQuotes inside = "a\"\n".toList) ∧
    EndsName ".b".toList ∧
    leading? ("\"a\"\"\n\"".toList ++ ".b".toList) = some ("a\"\n", ".b".toList) := by
  have hends : EndsName ".b".toList := by decide
  have hne : quote "a\"\n" ≠ "a\"\n" := by decide
  exact ⟨hne, (quote_bare_or_paired "a\"\n").2.1 hne, hends,
    (quote_bare_or_paired "a\"\n").2.2 _ hends⟩

end SchemaTypes.Text.Identifier
