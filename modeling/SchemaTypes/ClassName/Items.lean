import SchemaTypes.ClassName.Scan

/-!
# Lists of items

The items of a list stand in parentheses, with a separator between neighbours. What an item is
does not matter, as long as reading one makes headway: the list then comes to an end.

## Main definitions

* `Scan.Headway`: the scans that may be items.
* `Scan.items`: the items that are left in a list.

## Main results

* `Scan.exists_of_mem_items`: each item was read from no more text than the list.
-/

namespace SchemaTypes.ClassName.Scan

variable {α : Type}

/-- The scan can read the items of a list: it never goes backwards, and it goes forwards unless it
starts at a blank, a comma or a closing parenthesis. -/
structure Headway (item : Scan α) : Prop where
  /-- An item leaves no more text than there was. -/
  le : ∀ {p q : Place} {a : α}, item p = .ok a q → q.unread.length ≤ p.unread.length
  /-- An item leaves less text than there was. -/
  lt : ∀ {p q : Place} {a : α} {c : Char} {rest : List Char}, p.unread = c :: rest →
    isBlank c = false → c ≠ ',' → c ≠ ')' → item p = .ok a q →
      q.unread.length < p.unread.length

/-- Passing a separator leaves less text, or there is none and the next character is neither a
blank nor a comma. -/
theorem skipSeparator_headway (p : Place) :
    p.skipSeparator.unread.length < p.unread.length ∨
      p.skipSeparator = p ∧ ∀ c rest, p.unread = c :: rest → isBlank c = false ∧ c ≠ ',' := by
  rw [Place.skipSeparator]
  cases hunread : p.unread with
  | nil => exact .inr ⟨rfl, by simp⟩
  | cons c rest =>
    have hless := fun n => p.length_advance_lt hunread n
    rw [hunread] at hless
    rw [separator]
    split
    · exact .inl (hless _)
    · next hblank =>
      split
      · exact .inl (hless _)
      · next hcomma =>
        refine .inr ⟨rfl, ?_⟩
        rintro _ _ h
        cases h
        exact ⟨by simpa using hblank, by simpa using hcomma⟩

/-- A separator and an item leave less text than there was, unless the item stands at a closing
parenthesis. -/
theorem Headway.item_lt {item : Scan α} (headway : Headway item) {p q : Place} {c : Char}
    {rest : List Char} {a : α} (hunread : p.skipSeparator.unread = c :: rest)
    (hclose : c ≠ ')') (h : item p.skipSeparator = .ok a q) :
    q.unread.length < p.unread.length := by
  -- Either the separator makes headway, or nothing was passed and the item makes it.
  rcases skipSeparator_headway p with hless | ⟨hsame, hhead⟩
  · exact Nat.lt_of_le_of_lt (headway.le h) hless
  · rw [hsame] at hunread h
    obtain ⟨hblank, hcomma⟩ := hhead c rest hunread
    exact headway.lt hunread hblank hcomma hclose h

/-- The character that is seen by looking is the first one left. -/
theorem exists_unread_of_peek {p q : Place} {c : Char} (h : peek p = .ok c q) :
    ∃ rest, p.unread = c :: rest := by
  rw [peek] at h
  split at h
  · next hpeek =>
    cases h
    exact List.head?_eq_some_iff.1 hpeek
  · simp at h

/-- Reads the items that are left in a list, up to and including the parenthesis that ends it. It
is a fault if the text ends before the list does. -/
def items (item : Scan α) (headway : Headway item) (p : Place) :
    EStateM.Result Fault Place (List α) :=
  if p.skipSeparator.atEnd then fail .textEnded p.skipSeparator
  else
    match _hpeek : peek p.skipSeparator with
    | .error fault q => .error fault q
    | .ok c _ =>
      if _hclose : c = ')' then .ok [] (p.skipSeparator.advance 1)
      else
        match _hitem : item p.skipSeparator with
        | .error fault q => .error fault q
        | .ok a q =>
          match items item headway q with
          | .error fault r => .error fault r
          | .ok as r => .ok (a :: as) r
termination_by p.unread.length
decreasing_by
  obtain ⟨_, hunread⟩ := exists_unread_of_peek _hpeek
  exact headway.item_lt hunread _hclose _hitem

/-- Each item of a list was read from no more text than the list. -/
theorem exists_of_mem_items {item : Scan α} {headway : Headway item} {p q : Place} {as : List α}
    (h : items item headway p = .ok as q) {a : α} (ha : a ∈ as) :
    ∃ r s, item r = .ok a s ∧ r.unread.length ≤ p.unread.length := by
  fun_induction items item headway p generalizing as q with
  | case1 => simp [fail] at h
  | case2 => simp at h
  | case3 =>
    cases h
    simp at ha
  | case4 => simp at h
  | case5 => simp at h
  | case6 p _ c _ hpeek hclose a' q' hitem as' r hrest ih =>
    cases h
    obtain ⟨_, hunread⟩ := exists_unread_of_peek hpeek
    rcases List.mem_cons.1 ha with rfl | ha
    · refine ⟨_, _, hitem, ?_⟩
      rw [Place.skipSeparator, Place.unread_advance]
      exact (List.drop_sublist _ _).length_le
    · obtain ⟨r', s, hr', hlength⟩ := ih hrest ha
      exact ⟨r', s, hr', Nat.le_trans hlength (Nat.le_of_lt (headway.item_lt hunread hclose hitem))⟩

end SchemaTypes.ClassName.Scan
