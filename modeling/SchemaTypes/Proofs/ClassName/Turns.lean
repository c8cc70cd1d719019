import Mathlib.Algebra.GroupWithZero.Nat
import SchemaTypes.Proofs.Bindings
import SchemaTypes.Proofs.ClassName.Recognition

/-!
# Reading a list turn by turn

A list is read in turns: in each of them a separator is passed, and then an item, until the
parenthesis is met that ends the list. An item may be an empty text that is read without passing
a character. Then it stands in front of a comma, which only the next separator passes; but no turn
as a whole stays where it is.

## Main definitions

* `room`: what a text takes up.
* `Scan.Turn`: one turn that does not end the list.
* `Scan.Turns`: the turns in which a list is read.
* `Scan.withItem`: what a turn adds to the rest of the list.

## Main results

* `Scan.turns_of_items`: a list is read in turns.
* `Scan.Turn.items_eq`: reading a list goes on behind a turn.
* `Scan.Turn.offset_lt`: a turn passes at least one character.
* `Scan.sum_le_of_arguments`, `Scan.sum_le_of_userType`: the items of a list take up no more than
  its text, even if an empty item counts as one character.
-/

namespace SchemaTypes.ClassName

/-- The number of characters of a text, or one for the empty text. -/
def room (text : List Char) : Nat := max 1 text.length

theorem room_le_room {text text' : List Char} (h : text.length ≤ text'.length) :
    room text ≤ room text' := by
  rw [room, room]
  omega

namespace Scan

variable {α : Type} {item : Scan α}

/-- One turn in reading a list, which does not end it: behind a separator some character other than
the closing parenthesis is left, and an item is read there. -/
structure Turn (item : Scan α) (p : Place) (a : α) (q : Place) : Prop where
  exists_unread : ∃ c rest, p.skipSeparator.unread = c :: rest ∧ c ≠ ')'
  reads : item p.skipSeparator = .ok a q

/-- The turns in reading a list up to and including the parenthesis that ends it. -/
inductive Turns (item : Scan α) : Place → List α → Place → Prop
  | close {p : Place} {rest : List Char} : p.skipSeparator.unread = ')' :: rest →
      Turns item p [] (p.skipSeparator.advance 1)
  | turn {p q r : Place} {a : α} {as : List α} : Turn item p a q → Turns item q as r →
      Turns item p (a :: as) r

/-- The items of a list with one more in front; a fault stays what it is. -/
def withItem (a : α) : EStateM.Result Fault Place (List α) → EStateM.Result Fault Place (List α)
  | .ok as q => .ok (a :: as) q
  | .error fault q => .error fault q

/-- Reading goes on behind a turn. -/
theorem Turn.items_eq {headway : Headway item} {p q : Place} {a : α} (h : Turn item p a q) :
    items item headway p = withItem a (items item headway q) := by
  obtain ⟨c, rest, hunread, hclose⟩ := h.exists_unread
  rw [items_apply, hunread]
  cases hrest : items item headway q <;> simp only [if_neg hclose, h.reads, hrest, withItem]

/-- A list is read in turns. -/
theorem turns_of_items {headway : Headway item} {p q : Place} {as : List α}
    (h : items item headway p = .ok as q) : Turns item p as q := by
  -- Two cases succeed: the one that ends the list, and the one that goes on behind an item.
  fun_induction items item headway p generalizing as q with
  | case1 => simp [fail] at h
  | case2 => simp at h
  | case3 p _ _ hpeek =>
    cases h
    obtain ⟨rest, hunread⟩ := exists_unread_of_peek hpeek
    exact .close hunread
  | case4 => simp at h
  | case5 => simp at h
  | case6 p _ c _ hpeek hclose a s hitem as' r hrest ih =>
    cases h
    obtain ⟨rest, hunread⟩ := exists_unread_of_peek hpeek
    exact .turn ⟨⟨c, rest, hunread, hclose⟩, hitem⟩ (ih hrest)

/-- A turn leaves less text than there was. -/
theorem Turn.length_lt (headway : Headway item) {p q : Place} {a : α} (h : Turn item p a q) :
    q.unread.length < p.unread.length := by
  obtain ⟨c, rest, hunread, hclose⟩ := h.exists_unread
  exact headway.item_lt hunread hclose h.reads

/-- A turn passes at least one character. -/
theorem Turn.offset_lt {Item : List Char → List Char → α → Prop} (hitem : ReadsExactly item Item)
    (headway : Headway item) {p q : Place} {a : α} (h : Turn item p a q) :
    p.offset < q.offset := by
  have hlength := h.length_lt headway
  obtain ⟨sep, -, -, hskip⟩ := p.exists_skipSeparator
  obtain ⟨text, rest, -, -, rfl⟩ := (hitem.eq_ok_iff p.head_skipSeparator).1 h.reads
  rw [hskip, Place.advance_advance] at hlength ⊢
  -- If nothing was passed, as much text would be left as there was.
  by_contra hle
  have hzero : sep.length + text.length = 0 := by
    have : p.offset + (sep.length + text.length) ≤ p.offset := Nat.not_lt.1 hle
    omega
  rw [hzero, Place.unread_advance, List.drop_zero] at hlength
  exact Nat.lt_irrefl _ hlength

/-- Before a comma an argument is read without passing a character. -/
example : argument ⟨",,a)".toList, 1⟩ = .ok [] ⟨",,a)".toList, 1⟩ := rfl

/-- What the items of a list take up, and the parenthesis that ends it, is no more than the text
that is passed. An item takes up at least one character. -/
theorem Turns.sum_le (headway : Headway item) {text : α → List Char}
    (hitem : ∀ {p q : Place} {a : α}, item p = .ok a q →
      (text a).length + q.unread.length ≤ p.unread.length)
    {p q : Place} {as : List α} (h : Turns item p as q) :
    (as.map fun a => room (text a)).sum + 1 + q.unread.length ≤ p.unread.length := by
  induction h with
  | @close p rest hclose =>
    have hskip := p.length_skipSeparator_le
    rw [hclose, List.length_cons] at hskip
    rw [Place.unread_advance, hclose, List.map_nil, List.sum_nil, List.drop_succ_cons,
      List.drop_zero]
    omega
  | @turn p q r a as hturn _ ih =>
    have := hturn.length_lt headway
    have := hitem hturn.reads
    have := p.length_skipSeparator_le
    rw [List.map_cons, List.sum_cons, room]
    omega

/-- There is room for the arguments in their list. -/
theorem sum_le_of_arguments {p q : Place} {us : List (List Char)} (h : arguments p = .ok us q) :
    (us.map room).sum + 1 ≤ room p.unread := by
  rw [room]
  rcases list_of_opened h with rfl | ⟨r, hunits, hopen⟩
  · exact Nat.le_max_left 1 _
  · have hsum : (us.map room).sum + 1 + q.unread.length ≤ r.unread.length :=
      (turns_of_items hunits).sum_le headway_argument fun hunit =>
        length_unit_le (unit_of_argument hunit)
    rw [hopen, List.length_cons]
    omega

/-- There is room for named units in the text of their list. -/
theorem sum_le_of_namedUnits {decoder : Decoder} {p q : Place} {bindings : Bindings (List Char)}
    (h : namedUnits decoder p = .ok bindings q) :
    (bindings.values.map room).sum + 1 ≤ p.unread.length := by
  obtain ⟨pairs, hpairs, rfl⟩ := namedUnits_eq_ok_iff.1 h
  have hsum : (pairs.map fun pair => room pair.2).sum + 1 + q.unread.length ≤ p.unread.length :=
    (turns_of_items hpairs).sum_le (headway_namedUnit decoder) fun hunit =>
      (length_namedUnit_lt hunit).le
  -- A name that is bound again takes the place of what it stood for.
  have := Bindings.sum_ofPairs_le room pairs
  omega

/-- There is room for the types of fields in the arguments of their user-defined type. -/
theorem sum_le_of_userType {decoder : Decoder} {p q : Place} {t : UserType}
    (h : userType decoder p = .ok t q) : (t.fields.values.map room).sum + 1 ≤ room p.unread := by
  obtain ⟨r, hfields, hless⟩ := fields_of_userType h
  have := sum_le_of_namedUnits hfields
  rw [room]
  omega

end Scan

end SchemaTypes.ClassName
