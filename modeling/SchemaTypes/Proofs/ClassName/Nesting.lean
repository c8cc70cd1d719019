import SchemaTypes.Proofs.ClassName.Turns

/-!
# How deep parentheses are nested

The nesting of a text is the largest number of parentheses that a front part of it opens more than
it closes. Reading goes forwards only, and what is left of a text is nested no deeper than the
text was. Behind an opening parenthesis it is nested less deep, and the units that are read there
with it.

## Main definitions

* `nesting`: how deep the parentheses of a text are nested.

## Main results

* `exists_count_eq_nesting`: a front part opens as many parentheses more than it closes.
* `nesting_add_count_le`: what follows a front part is nested less deep by what is open there.
* `Scan.nesting_unit_le`: a unit is nested no deeper than the text that it is read from.
* `Scan.nesting_lt_of_mem_arguments`, `Scan.nesting_lt_of_mem_userType`: arguments are nested less
  deep than their list.
-/

namespace SchemaTypes.ClassName

/-- How many parentheses a front part of the text opens more than it closes, at most. At a closing
parenthesis this is what follows it less one, or the empty front part. -/
def nesting : List Char → Nat
  | [] => 0
  | c :: rest =>
    if c = '(' then nesting rest + 1 else if c = ')' then nesting rest - 1 else nesting rest

/-- Some front part opens so many parentheses more than it closes. -/
theorem exists_count_eq_nesting (text : List Char) :
    ∃ front, front <+: text ∧ front.count '(' = front.count ')' + nesting text := by
  induction text with
  | nil => exact ⟨[], List.nil_prefix, rfl⟩
  | cons c text ih =>
    obtain ⟨front, hfront, hcount⟩ := ih
    have hprefix : c :: front <+: c :: text := List.cons_prefix_cons.2 ⟨rfl, hfront⟩
    rw [nesting]
    split
    · next hopen =>
      subst hopen
      refine ⟨_, hprefix, ?_⟩
      simp
      omega
    · next hopen =>
      split
      · next hclose =>
        subst hclose
        -- If no parenthesis is open behind this one, the empty front part is as good as any.
        by_cases hzero : nesting text = 0
        · exact ⟨[], List.nil_prefix, by simp [hzero]⟩
        · refine ⟨_, hprefix, ?_⟩
          simp
          omega
      · next hclose =>
        refine ⟨_, hprefix, ?_⟩
        rwa [List.count_cons_of_ne hopen, List.count_cons_of_ne hclose]

/-- A front part is nested no deeper than the text. -/
theorem nesting_le_nesting_append (front rest : List Char) :
    nesting front ≤ nesting (front ++ rest) := by
  induction front with
  | nil => exact Nat.zero_le _
  | cons c front ih =>
    rw [List.cons_append, nesting, nesting]
    split
    · omega
    · split <;> omega

/-- What follows a front part is nested no deeper than the whole, less what the front part opens
and does not close. -/
theorem nesting_add_count_le (front rest : List Char) :
    nesting rest + front.count '(' ≤ nesting (front ++ rest) + front.count ')' := by
  induction front with
  | nil => simp
  | cons c front ih =>
    rw [List.cons_append, nesting]
    split
    · next hopen => subst hopen; simp; omega
    · next hopen =>
      rw [List.count_cons_of_ne hopen]
      split
      · next hclose => subst hclose; simp; omega
      · next hclose => rwa [List.count_cons_of_ne hclose]

/-- What follows a balanced text is nested no deeper than the whole. -/
theorem Balanced.nesting_le {front : List Char} (h : Balanced front) (rest : List Char) :
    nesting rest ≤ nesting (front ++ rest) := by
  have := nesting_add_count_le front rest
  have := h.count_eq
  omega

/-- A text without parentheses adds nothing to the nesting of what follows it. -/
theorem nesting_append_of_forall_ne {front : List Char} (h : ∀ c ∈ front, c ≠ '(' ∧ c ≠ ')')
    (rest : List Char) : nesting (front ++ rest) = nesting rest := by
  induction front with
  | nil => rfl
  | cons c front ih =>
    obtain ⟨⟨hopen, hclose⟩, htail⟩ := List.forall_mem_cons.1 h
    rw [List.cons_append, nesting, if_neg hopen, if_neg hclose, ih htail]

theorem IsName.nesting_append {name : List Char} (h : IsName name) (rest : List Char) :
    nesting (name ++ rest) = nesting rest := by
  refine nesting_append_of_forall_ne (fun c hc => ?_) rest
  have hidentifier := h c hc
  constructor <;> rintro rfl <;> exact absurd hidentifier (by decide)

namespace Place

theorem nesting_skipBlanks_le (p : Place) : nesting p.skipBlanks.unread ≤ nesting p.unread := by
  obtain ⟨blanks, hunread, hblanks, -⟩ := p.exists_skipBlanks
  conv => rhs; rw [hunread]
  exact hblanks.balanced.nesting_le _

theorem nesting_skipSeparator_le (p : Place) :
    nesting p.skipSeparator.unread ≤ nesting p.unread := by
  obtain ⟨sep, hunread, hsep, -⟩ := p.exists_skipSeparator
  conv => rhs; rw [hunread]
  exact hsep.1.balanced.nesting_le _

theorem nesting_afterName (p : Place) : nesting p.afterName.unread = nesting p.unread := by
  rw [← p.name_append_unread, p.longest_name.1.nesting_append]

end Place

namespace Scan

variable {decoder : Decoder} {p q : Place}

/-- What a mark leaves is nested no deeper, and less deep behind an opening parenthesis. -/
theorem nesting_mark_le {c : Char} (hblank : isBlank c = false) (hclose : c ≠ ')')
    {reason : Reason} (h : mark c reason p = .ok () q) :
    nesting q.unread + [c].count '(' ≤ nesting p.unread := by
  obtain ⟨blanks, rest, hunread, hblanks, rfl⟩ := (mark_eq_ok_iff hblank).1 h
  have hfront : p.unread = (blanks ++ [c]) ++ rest := by simpa using hunread
  have hbehind : (p.advance (blanks.length + 1)).unread = rest := by
    simpa using Place.unread_advance_of_append hfront
  have hle := nesting_add_count_le (blanks ++ [c]) rest
  have hcount : [c].count ')' = 0 := List.count_eq_zero.2 (by simpa using Ne.symm hclose)
  rw [List.count_append, List.count_append, hblanks.balanced.count_eq, hcount] at hle
  rw [hbehind, hfront]
  omega

/-- A group is nested no deeper than the text that it is read from, and neither is what is
left. -/
theorem nesting_group_le {g : List Char} (h : group p = .ok g q) :
    nesting g ≤ nesting p.unread ∧ nesting q.unread ≤ nesting p.unread := by
  obtain ⟨blanks, rest, hunread, hblanks, hg, rfl⟩ := group_eq_ok_iff.1 h
  have hbalanced : Balanced g := by
    rcases hg with ⟨rfl, -⟩ | hg
    · exact .nil
    · exact hg.balanced
  have hwhole := hblanks.balanced.nesting_le (g ++ rest)
  have hbehind : (p.advance (blanks.length + g.length)).unread = rest := by
    rw [← Place.advance_advance, Place.unread_advance,
      Place.unread_advance_of_append hunread, List.drop_left]
  rw [hbehind, hunread]
  exact ⟨(nesting_le_nesting_append g rest).trans hwhole,
    (hbalanced.nesting_le rest).trans hwhole⟩

/-- A unit is nested no deeper than the text that it is read from, and neither is what is left. -/
theorem nesting_unit_le {u : List Char} (h : unit p = .ok u q) :
    nesting u ≤ nesting p.unread ∧ nesting q.unread ≤ nesting p.unread := by
  obtain ⟨start, r, hstart, g, s, hgroup, hu⟩ := by simpa only [unit, bind_eq_ok_iff] using h
  cases hstart
  cases hu
  -- The blanks and the name in front of the group hold no parentheses.
  have hblanks := p.nesting_skipBlanks_le
  rw [← Place.nesting_afterName] at hblanks
  rw [p.skipBlanks.longest_name.1.nesting_append]
  exact (nesting_group_le hgroup).imp (·.trans hblanks) (·.trans hblanks)

/-- The unit of a named unit is nested no deeper than the text that it is read from, and neither is
what is left. -/
theorem nesting_namedUnit_le {pair : String × List Char} (h : namedUnit decoder p = .ok pair q) :
    nesting pair.2 ≤ nesting p.unread ∧ nesting q.unread ≤ nesting p.unread := by
  obtain ⟨p₁, -, hmark, hunit⟩ := steps_of_namedUnit h
  have := p.nesting_afterName
  have := nesting_mark_le (by decide) (by decide) hmark
  have := p₁.nesting_skipBlanks_le
  have := nesting_unit_le hunit
  omega

variable {α : Type} {item : Scan α}

/-- The items of a list are nested no deeper than its text. -/
theorem Turns.nesting_le {text : α → List Char}
    (hitem : ∀ {p q : Place} {a : α}, item p = .ok a q →
      nesting (text a) ≤ nesting p.unread ∧ nesting q.unread ≤ nesting p.unread)
    {as : List α} (h : Turns item p as q) : ∀ a ∈ as, nesting (text a) ≤ nesting p.unread := by
  induction h with
  | close => simp
  | @turn p q r a as hturn _ ih =>
    have hskip := p.nesting_skipSeparator_le
    obtain ⟨hfirst, hleft⟩ := hitem hturn.reads
    exact List.forall_mem_cons.2
      ⟨hfirst.trans hskip, fun a' ha' => (ih a' ha').trans (hleft.trans hskip)⟩

/-- Arguments are nested less deep than their list. -/
theorem nesting_lt_of_mem_arguments {us : List (List Char)} (h : arguments p = .ok us q)
    {u : List Char} (hu : u ∈ us) : nesting u < nesting p.unread := by
  rcases list_of_opened h with rfl | ⟨r, hunits, hopen⟩
  · simp at hu
  · have hle : ∀ u ∈ us, nesting u ≤ nesting r.unread :=
      (turns_of_items hunits).nesting_le fun hunit => nesting_unit_le (unit_of_argument hunit)
    rw [hopen, nesting, if_pos rfl]
    exact Nat.lt_succ_of_le (hle u hu)

/-- The unit of a name is nested no deeper than the text of its list. -/
theorem nesting_le_of_mem_namedUnits {bindings : Bindings (List Char)}
    (h : namedUnits decoder p = .ok bindings q) {u : List Char} (hu : u ∈ bindings.values) :
    nesting u ≤ nesting p.unread := by
  obtain ⟨pairs, hpairs, rfl⟩ := namedUnits_eq_ok_iff.1 h
  obtain ⟨pair, hpair, rfl⟩ := List.mem_map.1 hu
  exact (turns_of_items hpairs).nesting_le nesting_namedUnit_le pair
    (Bindings.mem_of_mem_ofPairs hpair)

/-- The type of a field is nested less deep than the arguments of its user-defined type. -/
theorem nesting_lt_of_mem_userType {t : UserType} (h : userType decoder p = .ok t q)
    {u : List Char} (hu : u ∈ t.fields.values) : nesting u < nesting p.unread := by
  obtain ⟨p₁, p₂, p₃, dump, hmark, hkeyspace, hdump, -, hfields⟩ := steps_of_userType h
  have hopen : nesting p₁.unread + 1 ≤ nesting p.unread :=
    nesting_mark_le (by decide) (by decide) hmark
  have := nesting_unit_le hkeyspace
  have := p₂.nesting_skipSeparator_le
  have := nesting_unit_le hdump
  have := p₃.nesting_skipSeparator_le
  have := nesting_le_of_mem_namedUnits hfields hu
  omega

end Scan

end SchemaTypes.ClassName
