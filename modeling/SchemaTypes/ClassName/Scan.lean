import SchemaTypes.ClassName.Place

/-!
# Scanning units

A scan starts at a place and ends at a place, with a value or with a fault. The pieces of a class
name are names and groups: a group is a text in parentheses that is kept as it is, up to the
parenthesis that closes the first one. A name with the group that belongs to it is a unit, which
is a class name of its own.

## Main definitions

* `depthAfter`, `closing?`: how many groups are open, and the part of a text that closes them.
* `Scan.group`, `Scan.unit`, `Scan.mark`: the pieces that are read.

## Main results

* `Scan.length_unit_le`: a unit is no longer than the text that was passed for it.
* `Scan.unit_ne_nil`: at a character that is neither blank nor one of `,` and `)` a unit is not
  empty, so that reading it makes headway.
-/

namespace SchemaTypes.ClassName

/-- The number of groups that are open after a character. -/
def depthAfter (depth : Nat) (c : Char) : Nat :=
  if c = '(' then depth + 1 else if c = ')' then depth - 1 else depth

/-- The shortest front part of a text in which `depth` open groups are closed, if there is
one. -/
def closing? : (depth : Nat) → List Char → Option (List Char)
  | 0, _ => some []
  | _ + 1, [] => none
  | depth + 1, c :: rest => (closing? (depthAfter (depth + 1) c) rest).map (c :: ·)

/-- A part that closes groups is a front part of the text. -/
theorem exists_eq_append_of_closing? {depth : Nat} {text body : List Char}
    (h : closing? depth text = some body) : ∃ rest, text = body ++ rest := by
  fun_induction closing? depth text generalizing body with
  | case1 text =>
    cases h
    exact ⟨text, rfl⟩
  | case2 => simp at h
  | case3 depth c text ih =>
    obtain ⟨inner, hinner, rfl⟩ := Option.map_eq_some_iff.1 h
    obtain ⟨rest, rfl⟩ := ih hinner
    exact ⟨rest, rfl⟩

/-- What starts at a place and ends at a place, with a value or a fault. -/
abbrev Scan (α : Type) := EStateM Fault Place α

namespace Scan

/-- Fails for a reason at the present place. -/
def fail {α : Type} (reason : Reason) : Scan α := fun p =>
  .error (.malformed (p.fault reason) []) p

/-- The next character, which is not passed. -/
def peek : Scan Char := fun p =>
  match p.peek? with
  | some c => .ok c p
  | none => .error .pastEnd p

/-- Passes blanks. -/
def skipBlanks : Scan Unit := fun p => .ok () p.skipBlanks

/-- Passes a separator and tells whether text is left after it. -/
def skipSeparator : Scan Bool := fun p => .ok (!p.skipSeparator.atEnd) p.skipSeparator

/-- Reads a run of identifier characters. -/
def identifier : Scan (List Char) := fun p => .ok p.name p.afterName

/-- Reads a run of identifier characters behind blanks. -/
def name : Scan (List Char) := fun p => .ok p.skipBlanks.name p.skipBlanks.afterName

/-- Tells whether no character is left. -/
def atEnd : Scan Bool := fun p => .ok p.atEnd p

/-- Goes on by the next character, which is looked at only if the text has not ended. -/
def lookAhead {α : Type} (ended : Scan α) (next : Char → Scan α) : Scan α := do
  if ← atEnd then ended
  else
    let c ← peek
    next c

/-- Passes characters. -/
def pass (n : Nat) : Scan Unit := fun p => .ok () (p.advance n)

/-- Reads the group that the next character opens, with its parentheses. A group that is never
closed is a fault at the end of the text. -/
def openGroup : Scan (List Char) := fun p =>
  match closing? 1 (p.unread.drop 1) with
  | some body => .ok ('(' :: body) (p.advance (body.length + 1))
  | none => fail .groupUnclosed p.toEnd

/-- Reads a group behind blanks, with its parentheses. There is none at the end of the text and
before a comma or a closing parenthesis; any other character is a fault. -/
def group : Scan (List Char) := do
  skipBlanks
  lookAhead (return []) fun c =>
    if c = ')' ∨ c = ',' then return []
    else if c = '(' then openGroup
    else fail (.groupExpected c)

/-- Reads a unit: a name behind blanks and the group that belongs to it, put together without
the blanks between them. -/
def unit : Scan (List Char) := do
  let start ← name
  let arguments ← group
  return start ++ arguments

/-- Passes a mark behind blanks; any other character, and the end of the text, is a fault for the
given reason. -/
def mark (c : Char) (reason : Reason) : Scan Unit := do
  skipBlanks
  lookAhead (fail reason) fun found => if found = c then pass 1 else fail reason

/-- A sequence of two scans succeeds if and only if both do. -/
theorem bind_eq_ok_iff {α β : Type} {x : Scan α} {f : α → Scan β} {p q : Place} {b : β} :
    (x >>= f) p = .ok b q ↔ ∃ a r, x p = .ok a r ∧ f a r = .ok b q := by
  change EStateM.bind x f p = .ok b q ↔ _
  rw [EStateM.bind]
  cases x p <;> simp [and_assoc]

/-- A sequence goes on with what its first scan gives. -/
theorem bind_of_eq_ok {α β : Type} {x : Scan α} {p q : Place} {a : α} (h : x p = .ok a q)
    (f : α → Scan β) : (x >>= f) p = f a q := by
  change EStateM.bind x f p = _
  rw [EStateM.bind, h]

/-- Looking ahead never looks past the end. -/
theorem lookAhead_apply {α : Type} (ended : Scan α) (next : Char → Scan α) (p : Place) :
    lookAhead ended next p =
      match p.unread with
      | [] => ended p
      | c :: _ => next c p := by
  change (if p.atEnd then ended else peek >>= next) p = _
  cases hunread : p.unread with
  | nil => rw [if_pos (by simp [Place.atEnd, hunread])]
  | cons c rest =>
    rw [if_neg (by simp [Place.atEnd, hunread])]
    change EStateM.bind peek next p = _
    simp [EStateM.bind, peek, Place.peek?, hunread]

/-- What a mark passes, by the text behind the blanks. -/
theorem mark_apply (c : Char) (reason : Reason) (p : Place) :
    mark c reason p =
      if p.skipBlanks.peek? = some c then .ok () (p.skipBlanks.advance 1)
      else fail reason p.skipBlanks := by
  change lookAhead _ _ p.skipBlanks = _
  rw [lookAhead_apply, Place.peek?]
  cases p.skipBlanks.unread with
  | nil => simp
  | cons found rest => by_cases hfound : found = c <;> simp [hfound, pass]

/-- What a group is, by the text behind the blanks. -/
theorem group_apply (p : Place) : group p =
    match p.skipBlanks.unread with
    | [] => .ok [] p.skipBlanks
    | c :: rest =>
      if c = ')' ∨ c = ',' then .ok [] p.skipBlanks
      else if c = '(' then
        match closing? 1 rest with
        | some body => .ok (c :: body) (p.skipBlanks.advance (body.length + 1))
        | none => fail .groupUnclosed p.skipBlanks.toEnd
      else fail (.groupExpected c) p.skipBlanks := by
  change lookAhead _ _ p.skipBlanks = _
  rw [lookAhead_apply]
  cases hunread : p.skipBlanks.unread with
  | nil => rfl
  | cons c rest =>
    by_cases hends : c = ')' ∨ c = ','
    · simp only [if_pos hends]
      rfl
    · by_cases hopens : c = '('
      · simp only [if_neg hends, if_pos hopens, openGroup, hunread, List.drop_succ_cons,
          List.drop_zero]
        subst hopens
        rfl
      · simp only [if_neg hends, if_neg hopens]

/-- A mark leaves less text than there was. -/
theorem length_lt_of_mark {c : Char} {reason : Reason} {p q : Place}
    (h : mark c reason p = .ok () q) : q.unread.length < p.unread.length := by
  rw [mark_apply] at h
  split at h
  · next hpeek =>
    cases h
    obtain ⟨rest, hrest⟩ := List.head?_eq_some_iff.1 hpeek
    have hblanks := p.length_skipBlanks_le
    rw [hrest, List.length_cons] at hblanks
    simp only [Place.unread_advance, hrest, List.drop_succ_cons, List.drop_zero]
    omega
  · simp [fail] at h

/-- A group is no longer than the text that was passed for it. -/
theorem length_group_le {p q : Place} {g : List Char} (h : group p = .ok g q) :
    g.length + q.unread.length ≤ p.unread.length := by
  have hblanks := p.length_skipBlanks_le
  rw [group_apply] at h
  split at h
  · cases h
    simpa using hblanks
  · next c rest hrest =>
    split at h
    · cases h
      simpa using hblanks
    · split at h
      · split at h
        · next body hbody =>
          cases h
          -- The body of the group is a front part of what stands behind the parenthesis.
          obtain ⟨left, rfl⟩ := exists_eq_append_of_closing? hbody
          rw [hrest] at hblanks
          simp only [List.length_cons, List.length_append] at hblanks
          simp only [Place.unread_advance, hrest, List.drop_succ_cons, List.drop_left,
            List.length_cons]
          omega
        · simp [fail] at h
      · simp [fail] at h

/-- A unit is no longer than the text that was passed for it. -/
theorem length_unit_le {p q : Place} {u : List Char} (h : unit p = .ok u q) :
    u.length + q.unread.length ≤ p.unread.length := by
  have hblanks := p.length_skipBlanks_le
  have hname := congrArg List.length p.skipBlanks.name_append_unread
  simp only [unit, bind_eq_ok_iff] at h
  obtain ⟨start, r, hstart, arguments, s, hgroup, hu⟩ := h
  cases hstart
  cases hu
  have := length_group_le hgroup
  simp only [List.length_append] at hname ⊢
  omega

/-- At a character that is neither blank nor one of `,` and `)` a unit is not empty. -/
theorem unit_ne_nil {p q : Place} {c : Char} {rest u : List Char}
    (hunread : p.unread = c :: rest) (hblank : isBlank c = false) (hcomma : c ≠ ',')
    (hclose : c ≠ ')') (h : unit p = .ok u q) : u ≠ [] := by
  have hskip : p.skipBlanks.unread = c :: rest := by
    rw [Place.unread_skipBlanks, hunread, List.dropWhile_cons_of_neg (by simp [hblank])]
  simp only [unit, bind_eq_ok_iff] at h
  obtain ⟨start, r, hstart, arguments, s, hgroup, hu⟩ := h
  cases hstart
  cases hu
  -- If the name is empty, the group starts at the character, which then opens one or is at fault.
  rw [Ne, List.append_eq_nil_iff]
  rintro ⟨hname, rfl⟩
  have hafter : p.skipBlanks.afterName.skipBlanks.unread = c :: rest := by
    have := p.skipBlanks.name_append_unread
    rw [hname, List.nil_append, hskip] at this
    rw [Place.unread_skipBlanks, this, List.dropWhile_cons_of_neg (by simp [hblank])]
  rw [group_apply, hafter] at hgroup
  simp only [hclose, hcomma, or_self, ↓reduceIte] at hgroup
  split at hgroup
  · split at hgroup <;> simp [fail] at hgroup
  · simp [fail] at hgroup

end Scan

end SchemaTypes.ClassName
