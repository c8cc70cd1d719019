import SchemaTypes.Proofs.ClassName.LeadingName
import SchemaTypes.Proofs.ClassName.Passing

/-!
# Class names that are read from one group

A class with arguments is read from its name and from the group behind it. What follows the group
does not count, so that any text may be put there. If the whole text is not balanced, then what is
not balanced stands behind the group.

## Main definitions

* `EndsWithGroup`: texts that end with the group that the first parenthesis opens.
* `StartsLike`: class names with the same name at the front.
* `ReadByGroup`: results that are read from one group.

## Main results

* `startsLike_append`: behind a parenthesis any text may follow.
* `ReadByGroup.append`, `ReadByGroup.exists_front`: the text behind the group may be put there and
  taken away.
-/

namespace SchemaTypes.ClassName

/-- The place behind the name of a class. -/
abbrev Place.behindName (className : List Char) : Place :=
  (Place.start className).skipBlanks.afterName

/-- The first parenthesis of the text opens a group, and the text ends with this group. -/
def EndsWithGroup (text : List Char) : Prop :=
  ∃ lead group, text = lead ++ group ∧ (∀ c ∈ lead, c ≠ '(' ∧ c ≠ ')') ∧ IsGroup group

theorem EndsWithGroup.mem {text : List Char} (h : EndsWithGroup text) : '(' ∈ text := by
  obtain ⟨lead, group, rfl, -, inner, -, rfl⟩ := h
  exact List.mem_append_right _ (.head _)

theorem EndsWithGroup.balanced {text : List Char} (h : EndsWithGroup text) : Balanced text := by
  obtain ⟨lead, group, rfl, hlead, hgroup⟩ := h
  exact (Balanced.of_forall_ne hlead).append hgroup.balanced

/-- Parentheses are no blanks, and stand in no name. -/
theorem ne_parenthesis {c : Char} (h : isBlank c = true ∨ isIdentifierChar c = true) :
    c ≠ '(' ∧ c ≠ ')' := by
  constructor <;> rintro rfl <;> exact absurd h (by decide)

/-- Both class names have the same name at the front, and start with the same words. -/
structure StartsLike (className other : List Char) : Prop where
  name_eq : (Place.start className).skipBlanks.name = (Place.start other).skipBlanks.name
  /-- No word is at the front of only one. -/
  isPrefixOf_eq : ∀ {word : List Char}, IsName word →
    word.isPrefixOf className = word.isPrefixOf other

theorem StartsLike.symm {className other : List Char} (h : StartsLike className other) :
    StartsLike other className :=
  ⟨h.name_eq.symm, fun hword => (h.isPrefixOf_eq hword).symm⟩

/-- A parenthesis ends what is looked for at the front of a text. -/
theorem isPrefixOf_append_of_mem {word front : List Char} (hword : IsName word)
    (hopen : '(' ∈ front) (rest : List Char) :
    word.isPrefixOf (front ++ rest) = word.isPrefixOf front := by
  obtain ⟨lead, tail, rfl⟩ := List.append_of_mem hopen
  have hstop : ∀ text : List Char, ∀ c ∈ ('(' :: text).head?, isIdentifierChar c = false := by
    rintro text _ ⟨⟩
    decide
  rw [List.append_assoc, List.cons_append, isPrefixOf_append hword (hstop _),
    isPrefixOf_append hword (hstop _)]

/-- Behind a text with a parenthesis any text may follow, and its name stays where it is. -/
theorem startsLike_append {front : List Char} (hopen : '(' ∈ front) (rest : List Char) :
    StartsLike front (front ++ rest) ∧ (Place.behindName front).unread ≠ [] ∧
      (Place.behindName (front ++ rest)).unread = (Place.behindName front).unread ++ rest := by
  obtain ⟨blanks, hblanks, hfront⟩ := Place.exists_start front
  have hname := (Place.start front).skipBlanks.longest_name
  have hhead := (Place.start front).head_skipBlanks
  rw [← Place.name_append_unread] at hhead
  generalize hnameOf : (Place.start front).skipBlanks.name = name at hfront hname hhead
  generalize (Place.start front).skipBlanks.afterName.unread = tail at hfront hname hhead ⊢
  have hne : tail ≠ [] := by
    rintro rfl
    rw [hfront, List.append_nil, List.mem_append] at hopen
    rcases hopen with hmem | hmem
    · exact absurd (hblanks _ hmem) (by decide)
    · exact absurd (hname.1 _ hmem) (by decide)
  -- What follows the name starts with the same character.
  have hsame : (tail ++ rest).head? = tail.head? := List.head?_append_of_ne_nil _ hne
  have hlongest : Longest IsName name (tail ++ rest) :=
    longest_isName_iff.2 ⟨hname.1, hsame ▸ (longest_isName_iff.1 hname).2⟩
  have hstart : ∀ c ∈ (name ++ (tail ++ rest)).head?, isBlank c = false := by
    rwa [List.head?_append, hsame, ← List.head?_append]
  obtain ⟨hname', hbehind⟩ := Place.start_of_append hblanks hlongest hstart
  have htext : blanks ++ (name ++ (tail ++ rest)) = front ++ rest := by
    simp only [hfront, List.append_assoc]
  rw [htext] at hname' hbehind
  exact ⟨⟨hnameOf.trans hname'.symm,
    fun hword => (isPrefixOf_append_of_mem hword hopen rest).symm⟩, hne, hbehind⟩

variable {β : Type} {outcome : List Char → Except Fault β} {className : List Char} {b : β}

/-- The result of a class name is read from the group behind its name: any class name that starts
alike and has the same group there has the same result. -/
def ReadByGroup (outcome : List Char → Except Fault β) (className : List Char) (b : β) : Prop :=
  ∃ (α : Type) (scan : Scan α) (a : α), scan.ReadsGroup ∧
    (∃ q, scan (Place.behindName className) = .ok a q) ∧
    ∀ other, StartsLike className other → (∃ q, scan (Place.behindName other) = .ok a q) →
      outcome other = .ok b

/-- Behind the group any text may follow. -/
theorem ReadByGroup.append (h : ReadByGroup outcome className b) (hopen : '(' ∈ className)
    (rest : List Char) : outcome (className ++ rest) = .ok b := by
  obtain ⟨α, scan, a, hscan, ⟨q, hq⟩, houtcome⟩ := h
  obtain ⟨hlike, hne, hbehind⟩ := startsLike_append hopen rest
  obtain ⟨blanks, group, left, hunread, -, -, hagain⟩ := (hscan.of_ok hq).resolve_left hne
  rw [hunread, List.append_assoc] at hbehind
  exact houtcome _ hlike (hagain hbehind)

/-- What is not balanced stands behind the group, and may be taken away. -/
theorem ReadByGroup.exists_front (h : ReadByGroup outcome className b)
    (hbalanced : ¬ Balanced className) :
    ∃ front rest, className = front ++ rest ∧ EndsWithGroup front ∧ outcome front = .ok b := by
  obtain ⟨α, scan, a, hscan, ⟨q, hq⟩, houtcome⟩ := h
  obtain ⟨blanks, hblanks, hclassName⟩ := Place.exists_start className
  have hname := (Place.start className).skipBlanks.longest_name.1
  generalize (Place.start className).skipBlanks.name = name at hclassName hname
  rcases hscan.of_ok hq with hended | ⟨blanks', group, rest, hunread, hblanks', hgroup, hagain⟩
  · -- A name alone is balanced.
    rw [hended, List.append_nil] at hclassName
    exact absurd (hclassName ▸ hblanks.balanced.append hname.balanced) hbalanced
  · have hfront : EndsWithGroup (blanks ++ (name ++ (blanks' ++ group))) := by
      refine ⟨blanks ++ (name ++ blanks'), group, by simp only [List.append_assoc], ?_, hgroup⟩
      simp only [List.forall_mem_append]
      exact ⟨fun c hc => ne_parenthesis (.inl (hblanks c hc)),
        fun c hc => ne_parenthesis (.inr (hname c hc)),
        fun c hc => ne_parenthesis (.inl (hblanks' c hc))⟩
    have htext : className = blanks ++ (name ++ (blanks' ++ group)) ++ rest := by
      rw [hclassName, hunread]
      simp only [List.append_assoc]
    obtain ⟨hlike, -, hbehind⟩ := startsLike_append hfront.mem rest
    rw [← htext] at hlike
    rw [← htext, hunread] at hbehind
    -- Behind the name of the front part only the group is left.
    have hgroup' := (List.append_cancel_right hbehind).symm
    refine ⟨_, rest, htext, hfront, houtcome _ hlike.symm ?_⟩
    exact hagain (hgroup'.trans (List.append_nil _).symm)

end SchemaTypes.ClassName
