import SchemaTypes.Proofs.ClassName.Grammar

/-!
# Class names in pieces

A written class name consists of pieces: names that are kept together, and the marks between them.
Inside the outermost parentheses any number of blanks may stand behind each piece.

## Main definitions

* `Spread`: pieces with blanks behind them.
* `Phrase`: a class name in pieces, with `Phrase.text` for its text without blanks and
  `Phrase.IsPadding` for the texts with them.

## Main results

* `Phrase.isPadding_text`: there may be no blanks at all.
* `Phrase.isBalanced_pieces`: however the pieces are spread, their text is balanced.
-/

namespace SchemaTypes.ClassName

/-- The pieces in order, with any number of blanks behind each. -/
inductive Spread : List (List Char) → List Char → Prop
  | nil : Spread [] []
  | cons {piece blanks text : List Char} {pieces : List (List Char)} : IsBlanks blanks →
      Spread pieces text → Spread (piece :: pieces) (piece ++ (blanks ++ text))

theorem isBlanks_nil : IsBlanks [] := by simp [IsBlanks]

/-- The same blanks may stand behind each piece. -/
theorem Spread.of_isBlanks {blanks : List Char} (hblanks : IsBlanks blanks)
    (pieces : List (List Char)) : Spread pieces (pieces.flatMap fun piece => piece ++ blanks) := by
  induction pieces with
  | nil => exact .nil
  | cons piece pieces ih =>
    rw [List.flatMap_cons, List.append_assoc]
    exact .cons hblanks ih

/-- Without blanks the pieces are their own text. -/
theorem Spread.flatten (pieces : List (List Char)) : Spread pieces pieces.flatten := by
  simpa using Spread.of_isBlanks isBlanks_nil pieces

theorem Spread.exists_of_append {first second : List (List Char)} {text : List Char}
    (h : Spread (first ++ second) text) :
    ∃ s t, text = s ++ t ∧ Spread first s ∧ Spread second t := by
  induction first generalizing text with
  | nil => exact ⟨[], text, rfl, .nil, h⟩
  | cons piece first ih =>
    rw [List.cons_append] at h
    obtain _ | ⟨hblanks, hrest⟩ := h
    obtain ⟨s, t, rfl, hs, ht⟩ := ih hrest
    exact ⟨_, t, by simp only [List.append_assoc], .cons hblanks hs, ht⟩

theorem Spread.exists_of_cons {piece : List Char} {pieces : List (List Char)} {text : List Char}
    (h : Spread (piece :: pieces) text) :
    ∃ blanks s, text = piece ++ (blanks ++ s) ∧ IsBlanks blanks ∧ Spread pieces s := by
  obtain _ | ⟨hblanks, hrest⟩ := h
  exact ⟨_, _, rfl, hblanks, hrest⟩

theorem Spread.eq_nil {text : List Char} (h : Spread [] text) : text = [] := by
  cases h
  rfl

/-- However the pieces are spread, their text is balanced. -/
def IsBalanced (pieces : List (List Char)) : Prop := ∀ text, Spread pieces text → Balanced text

namespace IsBalanced

theorem nil : IsBalanced [] := by
  intro text h
  rw [h.eq_nil]
  exact .nil

theorem append {first second : List (List Char)} (hfirst : IsBalanced first)
    (hsecond : IsBalanced second) : IsBalanced (first ++ second) := by
  intro text h
  obtain ⟨s, t, rfl, hs, ht⟩ := h.exists_of_append
  exact (hfirst s hs).append (hsecond t ht)

theorem cons {piece : List Char} {pieces : List (List Char)} (hpiece : Balanced piece)
    (hpieces : IsBalanced pieces) : IsBalanced (piece :: pieces) := by
  intro text h
  obtain ⟨blanks, s, rfl, hblanks, hs⟩ := h.exists_of_cons
  exact hpiece.append (hblanks.balanced.append (hpieces s hs))

/-- Balanced pieces may stand in parentheses. -/
theorem group {pieces : List (List Char)} (h : IsBalanced pieces) :
    IsBalanced (['('] :: (pieces ++ [[')']])) := by
  intro text htext
  obtain ⟨blanks, s, rfl, hblanks, hs⟩ := htext.exists_of_cons
  obtain ⟨inner, t, rfl, hinner, ht⟩ := hs.exists_of_append
  obtain ⟨blanks', t, rfl, hblanks', ht⟩ := ht.exists_of_cons
  obtain rfl := ht.eq_nil
  have hgroup := (hblanks.balanced.append (h inner hinner)).group.append hblanks'.balanced
  simpa using hgroup

/-- Balanced pieces may stand between commas. -/
theorem intercalate {lists : List (List (List Char))} (h : ∀ pieces ∈ lists, IsBalanced pieces) :
    IsBalanced ([[',']].intercalate lists) := by
  have hcomma : Balanced [','] := .of_forall_ne (by simp)
  induction lists with
  | nil => simpa using nil
  | cons pieces lists ih =>
    have hrest := ih fun p hp => h p (.tail _ hp)
    cases lists with
    | nil => simpa using h pieces (.head _)
    | cons next lists =>
      rw [List.intercalate_cons_cons]
      exact ((h pieces (.head _)).append (cons hcomma nil)).append hrest

end IsBalanced

/-- A class name in pieces: a unit that is kept together, or a name with pieces in parentheses. -/
inductive Phrase
  | word (text : List Char) (isUnit : IsUnit text) (ne_nil : text ≠ [])
  | call (name : List Char) (inner : List (List Char)) (isName : IsName name) (ne_nil : name ≠ [])
    (isBalanced : IsBalanced inner)

namespace Phrase

/-- The pieces of a class name. -/
def pieces : Phrase → List (List Char)
  | .word text _ _ => [text]
  | .call name inner _ _ _ => name :: ['('] :: (inner ++ [[')']])

/-- The text without blanks. -/
def text : Phrase → List Char
  | .word text _ _ => text
  | .call name inner _ _ _ => name ++ '(' :: (inner.flatten ++ [')'])

/-- The text has blanks between the pieces inside the outermost parentheses, and nowhere else. -/
def IsPadding : Phrase → List Char → Prop
  | .word text _ _, padded => padded = text
  | .call name inner _ _ _, padded => ∃ blanks s, IsBlanks blanks ∧ Spread inner s ∧
      padded = name ++ '(' :: (blanks ++ (s ++ [')']))

theorem flatten_pieces (phrase : Phrase) : phrase.pieces.flatten = phrase.text := by
  cases phrase with
  | word text _ _ => exact List.append_nil text
  | call name inner _ _ _ => simp [pieces, text]

/-- There may be no blanks at all. -/
theorem isPadding_text (phrase : Phrase) : phrase.IsPadding phrase.text := by
  cases phrase with
  | word text _ _ => rfl
  | call name inner _ _ _ => exact ⟨[], _, isBlanks_nil, .flatten inner, rfl⟩

theorem isBalanced_pieces (phrase : Phrase) : IsBalanced phrase.pieces := by
  cases phrase with
  | word text isUnit _ => exact IsBalanced.cons isUnit.balanced .nil
  | call name inner isName _ isBalanced => exact IsBalanced.cons isName.balanced isBalanced.group

end Phrase

end SchemaTypes.ClassName
