import SchemaTypes.Proofs.ClassName.Recognition
import Mathlib.Order.Bounds.Basic

/-!
# Separators are as long as possible

Two arguments are separated by blanks with at most one comma among them. A separator ends where the
text ends, or in front of the first character that cannot belong to it: one that is no blank, and a
comma only if there has been one. These conditions hold at one position only, which is the last one
up to which the text is a separator.

## Main definitions

* `SeparatorEnd`: where a separator from a start on ends.

## Main results

* `separatorEnd_iff_isGreatest`: a separator ends where it cannot be longer.
* `Scan.skipSeparator_of_separatorEnd`: what is passed as a separator, whether text is left behind
  it, and when a second one is passed.
-/

namespace SchemaTypes.ClassName

/-- The position where a separator from a start on ends. Between both stand only blanks and at most
one comma, and what stands at the position does not belong to the separator. -/
structure SeparatorEnd (text : List Char) (start stop : Nat) : Prop where
  le : start ≤ stop
  le_length : stop ≤ text.length
  isSeparator : IsSeparator (text.extract start stop)
  /-- No blank stands at the position. -/
  isBlank_eq_false : ∀ c ∈ text[stop]?, isBlank c = false
  /-- A comma stands there only as a second one. -/
  comma_mem : text[stop]? = some ',' → ',' ∈ text.extract start stop

variable {text : List Char} {start stop : Nat}

/-- The text up to the end of a separator is the longest one. -/
theorem separatorEnd_iff_longest :
    SeparatorEnd text start stop ↔ start ≤ stop ∧ stop ≤ text.length ∧
      Longest IsSeparator (text.extract start stop) (text.drop stop) := by
  rw [longest_isSeparator_iff, List.head?_drop]
  constructor
  · intro h
    refine ⟨h.le, h.le_length, h.isSeparator, fun c hc => ⟨h.isBlank_eq_false c hc, ?_⟩⟩
    rintro rfl
    exact h.comma_mem hc
  · rintro ⟨hle, hlength, hsep, hstop⟩
    exact ⟨hle, hlength, hsep, fun c hc => (hstop c hc).1, fun hcomma => (hstop _ hcomma).2 rfl⟩

instance : Decidable (SeparatorEnd text start stop) :=
  decidable_of_iff' _ separatorEnd_iff_longest

/-- The parts of a text before and behind a position. -/
theorem extract_append_drop (h : start ≤ stop) :
    text.extract start stop ++ text.drop stop = text.drop start := by
  obtain ⟨n, rfl⟩ := Nat.exists_eq_add_of_le h
  rw [List.extract_eq_take_drop, Nat.add_sub_cancel_left, ← List.drop_drop, List.take_append_drop]

theorem length_extract (h : stop ≤ text.length) :
    (text.extract start stop).length = stop - start := by
  rw [List.extract_eq_take_drop, List.length_take, List.length_drop]
  omega

/-- A separator ends at the last position up to which the text is one. -/
theorem separatorEnd_iff_isGreatest :
    SeparatorEnd text start stop ↔
      IsGreatest {stop | start ≤ stop ∧ stop ≤ text.length ∧ IsSeparator (text.extract start stop)}
        stop := by
  rw [separatorEnd_iff_longest]
  constructor
  · rintro ⟨hle, hstop, hsep, hlongest⟩
    refine ⟨⟨hle, hstop, hsep⟩, fun other ⟨hother, hlength, hother'⟩ => ?_⟩
    -- Up to another position stands a front part of the same text.
    have hprefix : text.extract start other <+: text.extract start stop ++ text.drop stop := by
      rw [extract_append_drop hle, ← extract_append_drop hother]
      exact List.prefix_append _ _
    have hshorter := hlongest _ hprefix hother'
    rw [length_extract hlength, length_extract hstop] at hshorter
    omega
  · rintro ⟨⟨hle, hstop, hsep⟩, hgreatest⟩
    refine ⟨hle, hstop, hsep, fun longer ⟨rest, hrest⟩ hlonger => ?_⟩
    rw [extract_append_drop hle] at hrest
    have hextract := extract_of_drop_eq_append hrest.symm
    have hlength := congrArg List.length hrest
    rw [List.length_append, List.length_drop] at hlength
    have hbound := hgreatest ⟨Nat.le_add_right _ _, by omega, hextract.symm ▸ hlonger⟩
    rw [length_extract hstop]
    omega

theorem SeparatorEnd.unique {other : Nat} (h : SeparatorEnd text start stop)
    (hother : SeparatorEnd text start other) : other = stop :=
  (separatorEnd_iff_isGreatest.1 hother).unique (separatorEnd_iff_isGreatest.1 h)

/-- All that is left is a separator if and only if it ends with the text. -/
theorem SeparatorEnd.eq_length_iff (h : SeparatorEnd text start stop) :
    stop = text.length ↔ IsSeparator (text.drop start) := by
  have hwhole : text.extract start text.length = text.drop start := by
    rw [← extract_append_drop (h.le.trans h.le_length), List.drop_length, List.append_nil]
  constructor
  · rintro rfl
    exact hwhole ▸ h.isSeparator
  · intro hsep
    have hlast := (separatorEnd_iff_isGreatest.1 h).2
      ⟨h.le.trans h.le_length, Nat.le_refl _, hwhole.symm ▸ hsep⟩
    exact Nat.le_antisymm h.le_length hlast

/-- Passing a separator ends where the separator does. -/
theorem Place.separatorEnd_skipSeparator {p : Place} (h : p.Inside) :
    SeparatorEnd p.text p.offset p.skipSeparator.offset := by
  obtain ⟨sep, hunread, hsep, hskip⟩ := p.exists_skipSeparator
  have hstop : p.skipSeparator.offset = p.offset + sep.length := congrArg Place.offset hskip
  have hextract : p.text.extract p.offset p.skipSeparator.offset = sep :=
    hstop ▸ extract_of_drop_eq_append hunread
  refine separatorEnd_iff_longest.2 ⟨by omega, onward_inside.skipSeparator h, ?_⟩
  rw [hextract]
  exact hsep

/-- Text is left at a place before the end. -/
theorem Place.not_atEnd (p : Place) : (!p.atEnd) = decide (p.offset < p.text.length) := by
  rw [Bool.eq_iff_iff, Bool.not_eq_true', Bool.eq_false_iff, Ne, atEnd, List.isEmpty_iff, unread,
    List.drop_eq_nil_iff, Nat.not_le, decide_eq_true_iff]

namespace Scan

/-- A separator is passed up to the one position that ends it, and this is the last position up to
which there are only blanks and at most one comma. No text is left if and only if all of it is a
separator. Behind the separator, another one is passed if and only if a comma stands there. -/
theorem skipSeparator_of_separatorEnd (text : List Char) {start : Nat}
    (hstart : start ≤ text.length) :
    (∃! stop, SeparatorEnd text start stop) ∧
    ∀ stop, SeparatorEnd text start stop →
      IsGreatest {stop | start ≤ stop ∧ stop ≤ text.length ∧ IsSeparator (text.extract start stop)}
        stop ∧
      skipSeparator ⟨text, start⟩ = .ok (decide (stop < text.length)) ⟨text, stop⟩ ∧
      (stop = text.length ↔ IsSeparator (text.drop start)) ∧
      ∃ more again, skipSeparator ⟨text, stop⟩ = .ok more ⟨text, again⟩ ∧
        (again ≠ stop ↔ text[stop]? = some ',') := by
  have hpassed := Place.separatorEnd_skipSeparator (p := ⟨text, start⟩) hstart
  refine ⟨⟨_, hpassed, fun stop hstop => hpassed.unique hstop⟩, fun stop hstop => ?_⟩
  have hskip : (Place.mk text start).skipSeparator = ⟨text, stop⟩ := by
    rw [hpassed.unique hstop]
    rfl
  refine ⟨separatorEnd_iff_isGreatest.1 hstop, ?_, hstop.eq_length_iff, _, _, rfl, ?_⟩
  · rw [skipSeparator_apply, hskip, Place.not_atEnd]
  · have hagain := Place.skipSeparator_skipSeparator_eq_self_iff (p := ⟨text, start⟩)
    have hhead : (Place.mk text stop).unread.head? = text[stop]? := List.head?_drop
    rw [hskip, hhead] at hagain
    exact not_iff_comm.1 (hagain.symm.trans ⟨congrArg Place.offset, congrArg (Place.mk text)⟩)

/-- A separator whose comma is followed by another one, which only a second separator passes. -/
theorem skipSeparator_of_separatorEnd_commas :
    SeparatorEnd "a ,\t, b".toList 1 4 ∧
    skipSeparator ⟨"a ,\t, b".toList, 1⟩ = .ok true ⟨"a ,\t, b".toList, 4⟩ ∧
    ∃ more again, skipSeparator ⟨"a ,\t, b".toList, 4⟩ = .ok more ⟨"a ,\t, b".toList, again⟩ ∧
      again ≠ 4 := by
  have hstop : SeparatorEnd "a ,\t, b".toList 1 4 := by decide
  obtain ⟨-, hskip, -, more, again, hsecond, hmoves⟩ :=
    (skipSeparator_of_separatorEnd "a ,\t, b".toList (by decide)).2 4 hstop
  exact ⟨hstop, hskip, more, again, hsecond, hmoves.2 rfl⟩

end Scan

end SchemaTypes.ClassName
