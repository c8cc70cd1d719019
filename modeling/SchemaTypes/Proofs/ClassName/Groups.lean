import SchemaTypes.Proofs.ClassName.Extent
import Mathlib.Order.Bounds.Basic

/-!
# Groups are as short as possible

A group is read behind blanks. It ends at the first position where as many parentheses have been
closed as opened, and if there is none, at the end of the text with a fault. Nothing is read where
the text ends or a list goes on, and any other character is a fault where it stands.

The scan looks for the end with a count of the groups that are open. That it finds the first
balanced part follows from the two results on this count: what closes a group is one, and where
nothing does the group stays open in every front part.

## Main definitions

* `FirstNonBlank`: where the blanks from a start on end.
* `EvenBetween`: positions between which as many parentheses are closed as opened.

## Main results

* `isLeast_of_closing?`: the end that is found is the first position of this kind.
* `Scan.group_of_firstNonBlank`: what is read as a group, wherever the scan starts.
-/

namespace SchemaTypes.ClassName

/-- The first position from a start on where no blank stands. Without a character to stand there it
is the end of the text, or the start if this is past the end. -/
structure FirstNonBlank (text : List Char) (start first : Nat) : Prop where
  le : start ≤ first
  /-- Only blanks stand before the position. -/
  isBlank_eq_true : ∀ i, start ≤ i → i < first → ∃ c ∈ text[i]?, isBlank c = true
  /-- No blank stands at the position. -/
  isBlank_eq_false : ∀ c ∈ text[first]?, isBlank c = false

/-- From one position of the text to another, with the characters at both, as many parentheses are
closed as opened. -/
def EvenBetween (text : List Char) (first last : Nat) : Prop :=
  last < text.length ∧
    (text.extract first (last + 1)).count '(' = (text.extract first (last + 1)).count ')'

instance (text : List Char) (first last : Nat) : Decidable (EvenBetween text first last) :=
  inferInstanceAs (Decidable (_ ∧ _))

instance (text : List Char) (start first : Nat) : Decidable (FirstNonBlank text start first) :=
  decidable_of_iff
    (start ≤ first ∧ (∀ i < first, start ≤ i → text[i]?.any isBlank = true) ∧
      text[first]?.all (fun c => !isBlank c) = true)
    (by
      simp only [Option.any_eq_true, Option.all_eq_true, Bool.not_eq_true']
      exact ⟨fun h => ⟨h.1, fun i hi hlt => h.2.1 i hlt hi, h.2.2⟩,
        fun h => ⟨h.le, fun i hlt hi => h.isBlank_eq_true i hi hlt, h.isBlank_eq_false⟩⟩)

theorem FirstNonBlank.le_of_firstNonBlank {text : List Char} {start first other : Nat}
    (h : FirstNonBlank text start first) (hother : FirstNonBlank text start other) :
    first ≤ other := by
  by_contra hlt
  obtain ⟨c, hc, hblank⟩ := h.isBlank_eq_true other hother.le (Nat.lt_of_not_le hlt)
  exact Bool.false_ne_true ((hother.isBlank_eq_false c hc).symm.trans hblank)

theorem FirstNonBlank.unique {text : List Char} {start first other : Nat}
    (h : FirstNonBlank text start first) (hother : FirstNonBlank text start other) :
    other = first :=
  Nat.le_antisymm (hother.le_of_firstNonBlank h) (h.le_of_firstNonBlank hother)

/-- Passing blanks ends at the first position without one. -/
theorem Place.firstNonBlank_skipBlanks (p : Place) :
    FirstNonBlank p.text p.offset p.skipBlanks.offset := by
  obtain ⟨blanks, hunread, hblanks, hskip⟩ := p.exists_skipBlanks
  have hoffset : p.skipBlanks.offset = p.offset + blanks.length := congrArg Place.offset hskip
  refine ⟨by omega, fun i hi hlt => ?_, fun c hc => p.head_skipBlanks c ?_⟩
  · have hindex : i - p.offset < blanks.length := by omega
    refine ⟨blanks[i - p.offset], ?_, hblanks _ (List.getElem_mem hindex)⟩
    -- The position is one among the blanks that are passed.
    have hget : p.unread[i - p.offset]? = some blanks[i - p.offset] := by
      rw [hunread, List.getElem?_append_left hindex, List.getElem?_eq_getElem hindex]
    rwa [Place.unread, List.getElem?_drop, Nat.add_sub_cancel' hi] at hget
  · rwa [Place.unread, List.head?_drop]

/-- What closes the group at a position ends at the first position with as many parentheses closed
as opened. -/
theorem isLeast_of_closing? {text rest body : List Char} {first : Nat}
    (hdrop : text.drop first = '(' :: rest) (hbody : closing? 1 rest = some body) :
    IsLeast {last | first < last ∧ EvenBetween text first last} (first + body.length) ∧
      text.extract first (first + body.length + 1) = '(' :: body := by
  obtain ⟨hgroup, left, rfl⟩ := closing?_one_eq_some_iff.1 hbody
  have hclosesAt : ClosesAt text first 0 (first + body.length) := hgroup.closes.closesAt hdrop
  have hextract : text.extract first (first + body.length + 1) = '(' :: body := by
    rw [← List.cons_append] at hdrop
    exact extract_of_drop_eq_append hdrop
  have hpos : 0 < body.length := by
    obtain ⟨inner, -, hinner⟩ := hgroup
    rw [List.tail_eq_of_cons_eq hinner, List.length_append, List.length_singleton]
    omega
  refine ⟨⟨⟨by omega, hclosesAt.lt, hclosesAt.count_eq.symm⟩, fun last hlast => ?_⟩, hextract⟩
  -- At each position before, the counts differ, since the group is still open.
  by_contra hlt
  exact hclosesAt.count_ne last hlast.1.le (Nat.lt_of_not_le hlt) hlast.2.2.symm

/-- If nothing closes the group at a position, no part from there on has as many parentheses closed
as opened. -/
theorem not_evenBetween_of_closing? {text rest : List Char} {first last : Nat}
    (hdrop : text.drop first = '(' :: rest) (hnone : closing? 1 rest = none) (hlt : first < last) :
    ¬ EvenBetween text first last := by
  rintro ⟨-, hcount⟩
  obtain ⟨length, hlength⟩ := Nat.exists_eq_add_of_lt hlt
  obtain rfl : last = first + (length + 1) := by omega
  rw [List.extract_eq_take_drop, hdrop, Nat.add_assoc, Nat.add_sub_cancel_left,
    List.take_succ_cons, List.count_cons_self, List.count_cons_of_ne (by decide)] at hcount
  -- The parenthesis of the group is open in each front part.
  have := closing?_eq_none_iff.1 hnone _ (List.take_prefix (length + 1) rest)
  omega

namespace Scan

/-- A group is read from the first position where no blank stands. At the end of the text, before a
closing parenthesis and before a comma it is empty. Behind an opening parenthesis it ends at the
first position where as many parentheses have been closed as opened; if there is no such position,
the fault is at the end of the text. Any other character is a fault at its own position. -/
theorem group_of_firstNonBlank (text : List Char) (start : Nat) :
    (∃! first, FirstNonBlank text start first) ∧
    ∀ first, FirstNonBlank text start first →
      (text[first]? = none ∨ text[first]? = some ')' ∨ text[first]? = some ',' →
        group ⟨text, start⟩ = .ok [] ⟨text, first⟩) ∧
      (text[first]? = some '(' → (∃ last, first < last ∧ EvenBetween text first last) →
        ∃ last, IsLeast {last | first < last ∧ EvenBetween text first last} last ∧
          group ⟨text, start⟩ = .ok (text.extract first (last + 1)) ⟨text, last + 1⟩) ∧
      (text[first]? = some '(' → (¬ ∃ last, first < last ∧ EvenBetween text first last) →
        group ⟨text, start⟩ =
          .error (.malformed ⟨String.ofList text, text.length, .groupUnclosed⟩ [])
            ⟨text, text.length⟩) ∧
      ∀ c, text[first]? = some c → c ≠ '(' → c ≠ ')' → c ≠ ',' →
        group ⟨text, start⟩ =
          .error (.malformed ⟨String.ofList text, first, .groupExpected c⟩ []) ⟨text, first⟩ := by
  have hpassed := (Place.mk text start).firstNonBlank_skipBlanks
  refine ⟨⟨_, hpassed, fun first hfirst => hpassed.unique hfirst⟩, fun first hfirst => ?_⟩
  have hskip : (Place.mk text start).skipBlanks = ⟨text, first⟩ := by
    rw [hpassed.unique hfirst]
    rfl
  -- The character at the position is the first that is left there.
  have hunread : (Place.mk text first).unread.head? = text[first]? := List.head?_drop
  rw [← hunread, ← hskip]
  refine ⟨fun hends => ?_, fun hopens heven => ?_, fun hopens hnone => ?_,
    fun c hc hopen hclose hcomma => ?_⟩
  · refine group_of_stops fun c hc => ?_
    rw [Option.mem_def.1 hc] at hends
    simpa [or_comm] using hends
  · obtain ⟨rest, hrest⟩ := List.head?_eq_some_iff.1 hopens
    rw [group_of_opens hrest, hskip]
    rw [hskip] at hrest
    cases hbody : closing? 1 rest with
    | none =>
      obtain ⟨last, hlt, hlast⟩ := heven
      exact absurd hlast (not_evenBetween_of_closing? hrest hbody hlt)
    | some body =>
      obtain ⟨hleast, hextract⟩ := isLeast_of_closing? hrest hbody
      exact ⟨_, hleast, by rw [hextract]; rfl⟩
  · obtain ⟨rest, hrest⟩ := List.head?_eq_some_iff.1 hopens
    rw [group_of_opens hrest, hskip]
    rw [hskip] at hrest
    cases hbody : closing? 1 rest with
    | none => rfl
    | some body => exact absurd ⟨_, (isLeast_of_closing? hrest hbody).1.1⟩ hnone
  · obtain ⟨rest, hrest⟩ := List.head?_eq_some_iff.1 hc
    rw [group_of_other hrest hopen hclose hcomma, hskip]
    rfl

/-- A group with another one inside it, read behind a blank; a group that is never closed; and a
character that starts no group. -/
theorem group_of_firstNonBlank_nested :
    group ⟨"T (a(b)c)(".toList, 1⟩ = .ok "(a(b)c)".toList ⟨"T (a(b)c)(".toList, 9⟩ ∧
    group ⟨"T (a(b)c)(".toList, 9⟩ =
      .error (.malformed ⟨"T (a(b)c)(", 10, .groupUnclosed⟩ []) ⟨"T (a(b)c)(".toList, 10⟩ ∧
    group ⟨"T (a(b)c)(".toList, 3⟩ =
      .error (.malformed ⟨"T (a(b)c)(", 3, .groupExpected 'a'⟩ []) ⟨"T (a(b)c)(".toList, 3⟩ := by
  refine ⟨?_, ?_, ?_⟩
  · obtain ⟨last, hleast, hgroup⟩ :=
      ((group_of_firstNonBlank "T (a(b)c)(".toList 1).2 2 (by decide)).2.1 rfl ⟨8, by decide⟩
    have hfirst : ∀ last < 10, 2 < last → EvenBetween "T (a(b)c)(".toList 2 last → 8 ≤ last := by
      decide
    have hle : 8 ≤ last := hfirst last hleast.1.2.1 hleast.1.1 hleast.1.2
    obtain rfl : last = 8 := Nat.le_antisymm (hleast.2 (by decide)) hle
    exact hgroup
  · have hnone : ∀ last < 10, ¬ 9 < last := by decide
    exact ((group_of_firstNonBlank "T (a(b)c)(".toList 9).2 9 (by decide)).2.2.1 rfl
      fun ⟨last, hlt, hlast⟩ => hnone last hlast.1 hlt
  · exact ((group_of_firstNonBlank "T (a(b)c)(".toList 3).2 3 (by decide)).2.2.2 'a' rfl
      (by decide) (by decide) (by decide)

end Scan

end SchemaTypes.ClassName
