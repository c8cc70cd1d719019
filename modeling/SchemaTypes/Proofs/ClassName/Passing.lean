import SchemaTypes.Proofs.ClassName.Extent
import SchemaTypes.Proofs.ClassName.Spacing

/-!
# What scans pass

The text that a scan passes is read in the same way wherever it stands. Of what follows it only the
next character counts, and behind a closing parenthesis not even this one. So the arguments of a
class are read from one group, with the same result for any text behind it.

## Main definitions

* `Scan.Passes`, `Scan.Encloses`: scans that pass texts of a certain form.
* `Scan.ReadsGroup`: scans that read a group.

## Main results

* `Scan.Encloses.bind`: the steps of a sequence.
* `Scan.readsGroup_arguments`, `Scan.readsGroup_userType`: arguments are read from a group.
-/

namespace SchemaTypes.ClassName.Scan

variable {α β : Type} {First Second Form : List Char → Prop}

/-- The scan passes texts of a certain form. Of what follows a text the next character counts. -/
structure Passes (scan : Scan α) (Form : List Char → Prop) : Prop where
  /-- A text that was passed is passed again wherever the same character follows it. -/
  of_ok : ∀ {p q : Place} {a : α}, scan p = .ok a q →
    ∃ text rest, p.unread = text ++ rest ∧ Form text ∧
      ∀ {p' : Place} {rest' : List Char}, p'.unread = text ++ rest' → rest'.head? = rest.head? →
        scan p' = .ok a (p'.advance text.length)

/-- The scan passes texts of a certain form, which show by themselves where they end. -/
structure Encloses (scan : Scan α) (Form : List Char → Prop) : Prop where
  /-- A text that was passed is not empty, and is passed again wherever it stands. -/
  of_ok : ∀ {p q : Place} {a : α}, scan p = .ok a q →
    ∃ text rest, p.unread = text ++ rest ∧ text ≠ [] ∧ Form text ∧
      ∀ {p' : Place} {rest' : List Char}, p'.unread = text ++ rest' →
        scan p' = .ok a (p'.advance text.length)

/-- The texts of two steps stand one behind the other. A sequence shows where it ends if its last
step does. -/
theorem Encloses.bind {x : Scan α} {f : α → Scan β} (hx : Passes x First)
    (hf : ∀ a, Encloses (f a) Second)
    (hform : ∀ {first second}, First first → Second second → Form (first ++ second)) :
    Encloses (x >>= f) Form where
  of_ok {p r b} h := by
    obtain ⟨a, q, hscan, hrest⟩ := bind_eq_ok_iff.1 h
    obtain ⟨first, behind, hunread, hfirst, hagain⟩ := hx.of_ok hscan
    obtain rfl : q = p.advance first.length := by
      cases hscan.symm.trans (hagain hunread rfl)
      rfl
    obtain ⟨second, rest, hbehind, hne, hsecond, hagain'⟩ := (hf a).of_ok hrest
    obtain rfl := (Place.unread_advance_of_append hunread).symm.trans hbehind
    refine ⟨first ++ second, rest, by rw [hunread, List.append_assoc],
      List.append_ne_nil_of_right_ne_nil _ hne, hform hfirst hsecond, ?_⟩
    intro p' rest' hunread'
    rw [List.append_assoc] at hunread'
    -- The first character behind the first text belongs to the second one.
    have hsame : (second ++ rest').head? = (second ++ rest).head? := by
      rw [List.head?_append_of_ne_nil _ hne, List.head?_append_of_ne_nil _ hne]
    rw [bind_of_eq_ok (hagain hunread' hsame), hagain' (Place.unread_advance_of_append hunread'),
      Place.advance_advance, List.length_append]

/-- A last step that passes nothing changes the value. -/
theorem Encloses.bind_pure {x : Scan α} (hx : Encloses x Form) (f : α → β) :
    Encloses (do let a ← x; pure (f a)) Form where
  of_ok {p r b} h := by
    obtain ⟨a, q, hscan, hpure⟩ := bind_eq_ok_iff.1 h
    cases hpure
    obtain ⟨text, rest, hunread, hne, hform, hagain⟩ := hx.of_ok hscan
    exact ⟨text, rest, hunread, hne, hform, fun hunread' => bind_of_eq_ok (hagain hunread') _⟩

/-- A unit is read with the blanks in front of it. -/
theorem passes_unit : Passes unit Balanced where
  of_ok {p q u} h := by
    rw [← unit_skipBlanks] at h
    obtain ⟨blanks, hunread, hblanks, -⟩ := p.exists_skipBlanks
    have hhead := p.head_skipBlanks
    -- The form of the unit says where it ends, given the character that follows.
    obtain ⟨text, rest, htext, hform, -⟩ := (unit_eq_ok_iff hhead).1 h
    rw [htext] at hunread hhead
    refine ⟨blanks ++ text, rest, by rw [hunread, List.append_assoc],
      hblanks.balanced.append hform.balanced, ?_⟩
    intro p' rest' hunread' hnext
    rw [List.append_assoc] at hunread'
    have hhead' : ∀ c ∈ (text ++ rest').head?, isBlank c = false := by
      rwa [List.head?_append, hnext, ← List.head?_append]
    have hskip := Place.skipBlanks_of_append hunread' hblanks hhead'
    have hbehind := Place.unread_advance_of_append hunread'
    rw [← hskip] at hbehind
    rw [← unit_skipBlanks, (unit_eq_ok_iff (hbehind ▸ hhead')).2
      ⟨text, rest', hbehind, hform.congr_head hnext, rfl⟩, hskip, Place.advance_advance,
      List.length_append]

/-- Whether text is left behind a separator is told by the next character. -/
theorem passes_skipSeparator : Passes skipSeparator Balanced where
  of_ok {p q more} h := by
    obtain ⟨sep, hunread, hsep, hskip⟩ := p.exists_skipSeparator
    cases h
    refine ⟨sep, _, hunread, hsep.1.balanced, ?_⟩
    intro p' rest' hunread' hnext
    obtain ⟨hseparator, hstop⟩ := longest_isSeparator_iff.1 hsep
    have hskip' : p'.skipSeparator = p'.advance sep.length :=
      skipSeparator_of_append hseparator hunread' (hnext ▸ hstop)
    -- The text has ended behind the separator if no character follows it.
    have hended : p'.skipSeparator.atEnd = p.skipSeparator.atEnd := by
      rw [Place.atEnd, Place.atEnd, hskip', Place.unread_advance_of_append hunread',
        Bool.eq_iff_iff, List.isEmpty_iff, List.isEmpty_iff, ← List.head?_eq_none_iff,
        ← List.head?_eq_none_iff, hnext]
    rw [skipSeparator_apply, hended, hskip']

/-- Decoding a name passes nothing. -/
theorem passes_decodeName (decoder : Decoder) (dump : List Char) :
    Passes (decodeName decoder dump) Balanced where
  of_ok {p _ _} h :=
    ⟨[], p.unread, rfl, Balanced.nil, fun _ _ =>
      decodeName_of_eq_ok (decodeName_eq_ok_iff.1 h).1 _⟩

/-- A mark is passed with the blanks in front of it. -/
theorem passes_mark {c : Char} (hc : isBlank c = false) (reason : Reason) :
    Passes (mark c reason) fun text => ∃ blanks, IsBlanks blanks ∧ text = blanks ++ [c] where
  of_ok {p q _} h := by
    obtain ⟨blanks, rest, hunread, hblanks, -⟩ := (mark_eq_ok_iff hc).1 h
    refine ⟨blanks ++ [c], rest, by rw [hunread, List.append_cons], ⟨blanks, hblanks, rfl⟩, ?_⟩
    intro p' rest' hunread' _
    rw [← List.append_cons] at hunread'
    rw [List.length_append, List.length_singleton]
    exact (mark_eq_ok_iff hc).2 ⟨blanks, rest', hunread', hblanks, rfl⟩

/-- A list of named units ends at the parenthesis that closes it. -/
theorem encloses_namedUnits (decoder : Decoder) :
    Encloses (namedUnits decoder) fun text => ∃ inner, Balanced inner ∧ text = inner ++ [')'] where
  of_ok {p q bindings} h := by
    obtain ⟨text, rest, hunread, hform, -⟩ := (spans_namedUnits decoder).eq_ok_iff.1 h
    obtain ⟨pairs, hpairs, -⟩ := id hform
    exact ⟨text, rest, hunread, hpairs.ne_nil, hpairs.exists_balanced NamedForm.balanced,
      fun hunread' => (spans_namedUnits decoder).eq_ok_iff.2 ⟨text, _, hunread', hform, rfl⟩⟩

/-- A step that passes a balanced text comes before a list that ends at its parenthesis. -/
theorem Encloses.bind_balanced {x : Scan α} {f : α → Scan β} (hx : Passes x Balanced)
    (hf : ∀ a, Encloses (f a) fun text => ∃ inner, Balanced inner ∧ text = inner ++ [')']) :
    Encloses (x >>= f) fun text => ∃ inner, Balanced inner ∧ text = inner ++ [')'] :=
  .bind hx hf fun {first second} hfirst hsecond => by
    obtain ⟨inner, hinner, rfl⟩ := hsecond
    exact ⟨first ++ inner, hfirst.append hinner, (List.append_assoc _ _ _).symm⟩

/-- The arguments of a user-defined type are a group behind blanks. -/
theorem encloses_userType (decoder : Decoder) :
    Encloses (userType decoder) fun text =>
      ∃ blanks group, IsBlanks blanks ∧ IsGroup group ∧ text = blanks ++ group := by
  -- The parenthesis that opens, the keyspace, the name and the fields are read one by one.
  refine .bind (passes_mark (by decide) _) (fun _ => .bind_balanced passes_unit fun keyspace =>
    .bind_balanced passes_skipSeparator fun _ => .bind_balanced passes_unit fun dump =>
    .bind_balanced (passes_decodeName decoder dump) fun name =>
    .bind_balanced passes_skipSeparator fun _ =>
    (encloses_namedUnits decoder).bind_pure (UserType.mk keyspace name)) ?_
  rintro _ _ ⟨blanks, hblanks, rfl⟩ ⟨inner, hinner, rfl⟩
  exact ⟨blanks, _, hblanks, ⟨inner, hinner, rfl⟩, List.append_assoc _ _ _⟩

/-- Unless the text has ended, the scan reads a group behind blanks, whatever follows. -/
structure ReadsGroup (scan : Scan α) : Prop where
  /-- The group is read again with the same value wherever it stands. -/
  of_ok : ∀ {p q : Place} {a : α}, scan p = .ok a q →
    p.unread = [] ∨ ∃ blanks group rest, p.unread = (blanks ++ group) ++ rest ∧
      IsBlanks blanks ∧ IsGroup group ∧
      ∀ {p' : Place} {rest' : List Char}, p'.unread = (blanks ++ group) ++ rest' →
        ∃ q', scan p' = .ok a q'

theorem readsGroup_userType (decoder : Decoder) : ReadsGroup (userType decoder) where
  of_ok h := by
    obtain ⟨_, rest, hunread, -, ⟨blanks, group, hblanks, hgroup, rfl⟩, hagain⟩ :=
      (encloses_userType decoder).of_ok h
    exact .inr ⟨blanks, group, rest, hunread, hblanks, hgroup, fun h => ⟨_, hagain h⟩⟩

theorem readsGroup_arguments : ReadsGroup arguments where
  of_ok {p q us} h := by
    by_cases hended : p.unread = []
    · exact .inl hended
    -- Arguments that are left and do not start with a parenthesis are not read.
    have hopen : p.unread.head? = some '(' := by
      obtain ⟨c, behind, hbehind⟩ := List.exists_cons_of_ne_nil hended
      rw [arguments, opened_apply, hbehind] at h
      rw [hbehind]
      by_contra hne
      simp only [if_neg fun hc => hne (congrArg some hc)] at h
      simp [fail] at h
    obtain ⟨group, rest, hunread, hform, -⟩ := (opened_eq_ok_iff spans_units hopen).1 h
    have hgroup := hform.isGroup fun h => h.exists_balanced UnitForm.balanced
    refine .inr ⟨[], group, rest, hunread, isBlanks_nil, hgroup, fun {p' rest'} hunread' => ?_⟩
    have hopen' : p'.unread.head? = some '(' := by
      obtain ⟨inner, -, rfl⟩ := hgroup
      rw [hunread']
      rfl
    exact ⟨_, (opened_eq_ok_iff spans_units hopen').2 ⟨group, rest', hunread', hform, rfl⟩⟩

/-- How many arguments are expected does not matter for where they are read. -/
theorem readsGroup_expectArguments (count : Nat) (reason : Nat → Reason) :
    ReadsGroup (expectArguments count reason) where
  of_ok h := by
    obtain ⟨harguments, hcount⟩ := arguments_of_expectArguments h
    refine (readsGroup_arguments.of_ok harguments).imp_right ?_
    rintro ⟨blanks, group, rest, hunread, hblanks, hgroup, hagain⟩
    refine ⟨blanks, group, rest, hunread, hblanks, hgroup, fun hunread' => ?_⟩
    obtain ⟨q', hq'⟩ := hagain hunread'
    refine ⟨q', ?_⟩
    rw [expectArguments, bind_of_eq_ok hq', if_pos hcount]
    rfl

end SchemaTypes.ClassName.Scan
