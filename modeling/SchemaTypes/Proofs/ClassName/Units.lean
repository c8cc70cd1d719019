import SchemaTypes.ClassName.Arguments
import SchemaTypes.Proofs.ClassName.Parentheses
import SchemaTypes.Proofs.Text.Runs

/-!
# Written units are read back

A unit is written as a run of identifier characters, followed by nothing or by one group. Wherever
a unit stands before a comma, before a closing parenthesis or at the end, it is read as it is
written and nothing else is passed.

## Main definitions

* `IsName`, `IsUnit`: how names and units are written.
* `Stops`: what may follow a unit.
* `Scan.Reads`: a scan reads a text as a value wherever the text may stand.

## Main results

* `Scan.reads_group`, `Scan.reads_unit`, `Scan.reads_argument`: groups and units are read as they
  are written.
* `Scan.reads_namedUnit`: a text that a decoder takes for a name, a colon and a unit are read as
  the name and the unit.
-/

namespace SchemaTypes.ClassName

/-- A run of identifier characters, which may be empty. -/
def IsName (name : List Char) : Prop := ∀ c ∈ name, isIdentifierChar c = true

/-- A name, followed by nothing or by one group. -/
def IsUnit (u : List Char) : Prop :=
  ∃ name group, u = name ++ group ∧ IsName name ∧ (group = [] ∨ IsGroup group)

/-- The text is at its end or goes on with a comma or a closing parenthesis. -/
def Stops (rest : List Char) : Prop := ∀ c ∈ rest.head?, c = ',' ∨ c = ')'

theorem isBlank_eq_false_of_isIdentifierChar {c : Char} (h : isIdentifierChar c = true) :
    isBlank c = false := by
  rw [Bool.eq_false_iff]
  intro hblank
  simp only [isBlank, Bool.or_eq_true, beq_iff_eq] at hblank
  rcases hblank with (rfl | rfl) | rfl <;> exact absurd h (by decide)

theorem isIdentifierChar_eq_false_of_isBlank {c : Char} (h : isBlank c = true) :
    isIdentifierChar c = false := by
  rw [Bool.eq_false_iff]
  intro hidentifier
  exact Bool.false_ne_true ((isBlank_eq_false_of_isIdentifierChar hidentifier).symm.trans h)

/-- An identifier character is no punctuation. -/
theorem ne_of_isIdentifierChar {c d : Char} (h : isIdentifierChar c = true)
    (hd : isIdentifierChar d = false) : c ≠ d := by
  rintro rfl
  simp [h] at hd

namespace Stops

variable {rest : List Char}

theorem nil : Stops [] := by simp [Stops]

theorem comma : Stops (',' :: rest) := by simp [Stops]

theorem close : Stops (')' :: rest) := by simp [Stops]

/-- What may follow a unit is no blank. -/
theorem isBlank_eq_false (h : Stops rest) : ∀ c ∈ rest.head?, isBlank c = false := by
  intro c hc
  rcases h c hc with rfl | rfl <;> decide

/-- What may follow a unit does not belong to its name. -/
theorem isIdentifierChar_eq_false (h : Stops rest) :
    ∀ c ∈ rest.head?, isIdentifierChar c = false := by
  intro c hc
  rcases h c hc with rfl | rfl <;> decide

end Stops

/-- Behind the name of a unit stands the parenthesis of its group or what may follow the unit. -/
theorem head_group {g rest : List Char} (hg : g = [] ∨ IsGroup g) (hrest : Stops rest) :
    ∀ c ∈ (g ++ rest).head?, isIdentifierChar c = false ∧ isBlank c = false := by
  rcases hg with rfl | ⟨inner, -, rfl⟩
  · intro c hc
    exact ⟨hrest.isIdentifierChar_eq_false c hc, hrest.isBlank_eq_false c hc⟩
  · intro c hc
    cases hc
    decide

/-- No blank stands where a unit starts. -/
theorem head_unit {u rest : List Char} (hu : IsUnit u) (hrest : Stops rest) :
    ∀ c ∈ (u ++ rest).head?, isBlank c = false := by
  obtain ⟨name, g, rfl, hname, hg⟩ := hu
  cases name with
  | nil => exact fun c hc => (head_group hg hrest c hc).2
  | cons d name =>
    intro c hc
    cases hc
    exact isBlank_eq_false_of_isIdentifierChar (hname _ (.head _))

namespace Place

variable {p : Place}

theorem advance_advance (p : Place) (m n : Nat) :
    (p.advance m).advance n = p.advance (m + n) := by
  simp [advance, Nat.add_assoc]

/-- Passing a front part leaves the rest. -/
theorem unread_advance_of_append {front rest : List Char} (h : p.unread = front ++ rest) :
    (p.advance front.length).unread = rest := by
  rw [unread_advance, h, List.drop_left]

/-- Passing a front part and the next character leaves what follows them. -/
theorem unread_advance_succ_of_append {front rest : List Char} {c : Char}
    (h : p.unread = front ++ c :: rest) : (p.advance (front.length + 1)).unread = rest := by
  rw [← advance_advance, unread_advance, unread_advance_of_append h]
  rfl

/-- No blank is passed where none stands. -/
theorem skipBlanks_eq_self (h : ∀ c ∈ p.unread.head?, isBlank c = false) :
    p.skipBlanks = p := by
  rw [skipBlanks, Text.takeWhile_eq_nil_of_head h]
  rfl

/-- The name at a place ends where the identifier characters end. -/
theorem name_of_append {name rest : List Char} (h : p.unread = name ++ rest)
    (hname : IsName name) (hrest : ∀ c ∈ rest.head?, isIdentifierChar c = false) :
    p.name = name := by
  rw [Place.name, h, Text.takeWhile_append_of_head hname hrest]

end Place

namespace Scan

/-- Wherever the text stands before a comma, before a closing parenthesis or at the end, the scan
reads it as the value and passes it, and nothing else. -/
def Reads {α : Type} (scan : Scan α) (text : List Char) (a : α) : Prop :=
  ∀ (p : Place) (rest : List Char), p.unread = text ++ rest → Stops rest →
    scan p = .ok a (p.advance text.length)

/-- Behind the blanks, no group is read where the text ends or a list goes on. -/
theorem group_of_stops {p : Place} (h : Stops p.skipBlanks.unread) :
    group p = .ok [] p.skipBlanks := by
  rw [group_apply]
  cases hunread : p.skipBlanks.unread with
  | nil => rfl
  | cons c rest =>
    rw [hunread] at h
    simp only [if_pos (h c rfl).symm]

/-- Behind the blanks, a group is read from its opening parenthesis to what closes it. -/
theorem group_of_opens {p : Place} {rest : List Char} (h : p.skipBlanks.unread = '(' :: rest) :
    group p =
      match closing? 1 rest with
      | some body => .ok ('(' :: body) (p.skipBlanks.advance (body.length + 1))
      | none => fail .groupUnclosed p.skipBlanks.toEnd := by
  rw [group_apply, h]
  rfl

/-- Behind the blanks, any other character is a fault. -/
theorem group_of_other {p : Place} {c : Char} {rest : List Char}
    (h : p.skipBlanks.unread = c :: rest) (hopen : c ≠ '(') (hclose : c ≠ ')') (hcomma : c ≠ ',') :
    group p = fail (.groupExpected c) p.skipBlanks := by
  rw [group_apply, h]
  simp only [if_neg (not_or.2 ⟨hclose, hcomma⟩), if_neg hopen]

/-- A group, if there is one, is read as it is written. -/
theorem reads_group {g : List Char} (hg : g = [] ∨ IsGroup g) : Reads group g g := by
  intro p rest hunread hrest
  have hskip : p.skipBlanks = p :=
    Place.skipBlanks_eq_self (hunread ▸ fun c hc => (head_group hg hrest c hc).2)
  rcases hg with rfl | ⟨inner, hinner, rfl⟩
  -- Without a group the next character is one that may follow the unit.
  · rw [group_of_stops (by rwa [hskip, hunread]), hskip]
    rfl
  -- The group ends with the parenthesis that closes its first one.
  · rw [group_of_opens (by rw [hskip, hunread, List.cons_append]), hskip, List.append_assoc,
      List.singleton_append, closing?_of_balanced hinner]
    rfl

/-- A unit is read as it is written. -/
theorem reads_unit {u : List Char} (hu : IsUnit u) : Reads unit u u := by
  intro p rest hunread hrest
  have hskip : p.skipBlanks = p := Place.skipBlanks_eq_self (hunread ▸ head_unit hu hrest)
  obtain ⟨name, g, rfl, hname, hg⟩ := hu
  rw [List.append_assoc] at hunread
  have hnameOf : p.name = name :=
    Place.name_of_append hunread hname fun c hc => (head_group hg hrest c hc).1
  have hafter : p.afterName.unread = g ++ rest := by
    rw [Place.afterName, hnameOf]
    exact Place.unread_advance_of_append hunread
  -- The group is read where the name ends.
  have hgroup := reads_group hg _ rest hafter hrest
  rw [unit, bind_eq_ok_iff]
  refine ⟨name, p.afterName, ?_, ?_⟩
  · rw [Scan.name, hskip, hnameOf]
  · rw [bind_eq_ok_iff]
    refine ⟨g, _, hgroup, ?_⟩
    rw [Place.afterName, hnameOf, Place.advance_advance, List.length_append]
    rfl

theorem reads_argument {u : List Char} (hu : IsUnit u) : Reads argument u u := by
  intro p rest hunread hrest
  rw [argument, reads_unit hu p rest hunread hrest]

/-- A mark is passed where it stands. -/
theorem mark_of_unread {p : Place} {c : Char} {rest : List Char} (reason : Reason)
    (h : p.unread = c :: rest) (hblank : isBlank c = false) :
    mark c reason p = .ok () (p.advance 1) := by
  have hhead : ∀ d ∈ p.unread.head?, isBlank d = false := by
    rw [h]
    intro d hd
    cases hd
    exact hblank
  rw [mark_apply, Place.skipBlanks_eq_self hhead, if_pos (by simp [Place.peek?, h])]

theorem decodeName_of_eq_ok {decoder : Decoder} {dump : List Char} {name : String}
    (h : decoder (String.ofList dump) = .ok name) (p : Place) :
    decodeName decoder dump p = .ok name p := by
  rw [decodeName, h]

/-- A text that a decoder takes for a name, a colon and a unit are read as the name and the
unit. -/
theorem reads_namedUnit {decoder : Decoder} {dump u : List Char} {name : String}
    (hdump : IsName dump) (hname : decoder (String.ofList dump) = .ok name) (hu : IsUnit u) :
    Reads (namedUnit decoder) (dump ++ ':' :: u) (name, u) := by
  intro p rest hunread hrest
  rw [List.append_assoc, List.cons_append] at hunread
  have hdumpOf : p.name = dump := by
    refine Place.name_of_append hunread hdump fun c hc => ?_
    cases hc
    decide
  have hcolon : p.afterName.unread = ':' :: (u ++ rest) := by
    rw [Place.afterName, hdumpOf]
    exact Place.unread_advance_of_append hunread
  have hbehind : (p.afterName.advance 1).unread = u ++ rest := by
    rw [Place.unread_advance, hcolon]
    rfl
  have hskip : (p.afterName.advance 1).skipBlanks = p.afterName.advance 1 :=
    Place.skipBlanks_eq_self (hbehind ▸ head_unit hu hrest)
  simp only [namedUnit, bind_eq_ok_iff]
  -- The steps in turn: the dump, its name, the colon, no blanks, and the unit. Decoding stays
  -- at its place.
  refine ⟨dump, p.afterName, ?_, name, p.afterName, decodeName_of_eq_ok hname _, (),
    p.afterName.advance 1, mark_of_unread _ hcolon (by decide), (), p.afterName.advance 1, ?_, u, _,
    reads_argument hu _ rest hbehind hrest, ?_⟩
  · rw [identifier, hdumpOf]
  · rw [skipBlanks, hskip]
  · rw [Place.afterName, hdumpOf, Place.advance_advance, Place.advance_advance, List.length_append,
      List.length_cons, Nat.add_comm 1]
    rfl

end Scan

end SchemaTypes.ClassName
