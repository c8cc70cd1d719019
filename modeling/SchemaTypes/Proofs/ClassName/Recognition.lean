import SchemaTypes.Proofs.ClassName.Faults
import SchemaTypes.Proofs.ClassName.Grammar

/-!
# Lists are read by their grammar

Each scan reads the texts that the grammar describes, with the values they are written for, and no
others. Both directions hold for any scan of items that does so itself.

## Main definitions

* `Scan.ReadsExactly`: the scan of an item reads the texts of items and no others.
* `Scan.Spans`: the scan of a list passes the texts of lists, wherever they stand.

## Main results

* `Scan.readsExactly_argument`, `Scan.readsExactly_namedUnit`: both kinds of arguments.
* `Scan.spans_items`: the items of a list.
* `Scan.arguments_eq_ok_iff`: where a list of arguments is read, and where it is malformed.
-/

namespace SchemaTypes.ClassName

/-- The separator that is passed at the front of a text. -/
theorem exists_separator (comma : Bool) (text : List Char) :
    ∃ rest, text = separator comma text ++ rest ∧
      (∀ c ∈ separator comma text, isBlank c = true ∨ c = ',') ∧
      (separator comma text).count ',' ≤ (if comma then 0 else 1) ∧
      ∀ c ∈ rest.head?, isBlank c = false ∧
        (c = ',' → comma = true ∨ ',' ∈ separator comma text) := by
  fun_induction separator comma text with
  | case1 => exact ⟨[], rfl, by simp, by simp, by simp⟩
  | case2 comma c text hblank ih =>
    obtain ⟨rest, htext, hsep, hcount, hrest⟩ := ih
    have hne : c ≠ ',' := by
      rintro rfl
      exact absurd hblank (by decide)
    refine ⟨rest, congrArg (c :: ·) htext, List.forall_mem_cons.2 ⟨.inl hblank, hsep⟩, ?_, ?_⟩
    · rwa [List.count_cons_of_ne hne]
    · exact fun d hd => ⟨(hrest d hd).1, fun h => ((hrest d hd).2 h).imp_right (.tail _)⟩
  | case3 comma c text hblank hcomma ih =>
    obtain ⟨rfl, rfl⟩ := hcomma
    obtain ⟨rest, htext, hsep, hcount, hrest⟩ := ih
    refine ⟨rest, congrArg (',' :: ·) htext, List.forall_mem_cons.2 ⟨.inr rfl, hsep⟩, ?_, ?_⟩
    · rw [List.count_cons_self]
      simpa using hcount
    · exact fun d hd => ⟨(hrest d hd).1, fun _ => .inr (.head _)⟩
  | case4 comma c text hblank hcomma =>
    refine ⟨c :: text, rfl, by simp, by simp, ?_⟩
    intro d hd
    cases hd
    refine ⟨by simpa using hblank, fun hc => .inl ?_⟩
    simpa [hc] using hcomma

/-- What `skipSeparator` passes is the longest separator. -/
theorem Place.exists_skipSeparator (p : Place) :
    ∃ sep, p.unread = sep ++ p.skipSeparator.unread ∧
      Longest IsSeparator sep p.skipSeparator.unread ∧ p.skipSeparator = p.advance sep.length := by
  obtain ⟨rest, htext, hsep, hcount, hrest⟩ := exists_separator false p.unread
  obtain rfl : rest = p.skipSeparator.unread := (unread_advance_of_append htext).symm
  refine ⟨separator false p.unread, htext, longest_isSeparator_iff.2 ⟨⟨hsep, ?_⟩, ?_⟩, rfl⟩
  · simpa using hcount
  · intro c hc
    refine ⟨(hrest c hc).1, fun h => ?_⟩
    simpa using (hrest c hc).2 h

/-- No blank stands behind a separator. -/
theorem Place.head_skipSeparator (p : Place) :
    ∀ c ∈ p.skipSeparator.unread.head?, isBlank c = false := by
  obtain ⟨sep, -, hsep, -⟩ := p.exists_skipSeparator
  exact fun c hc => ((longest_isSeparator_iff.1 hsep).2 c hc).1

/-- No separator is passed in front of a character that belongs to none. -/
theorem Place.skipSeparator_eq_self_iff {p : Place} :
    p.skipSeparator = p ↔ ∀ c ∈ p.unread.head?, isBlank c = false ∧ c ≠ ',' := by
  constructor
  · intro h
    obtain ⟨sep, -, hsep, hskip⟩ := p.exists_skipSeparator
    rw [h] at hsep hskip
    -- Nothing has been passed, so that a comma would belong to the separator.
    obtain rfl : sep = [] := by
      have hoffset : p.offset = p.offset + sep.length := congrArg Place.offset hskip
      exact List.length_eq_zero_iff.1 (by omega)
    intro c hc
    obtain ⟨hblank, hcomma⟩ := (longest_isSeparator_iff.1 hsep).2 c hc
    exact ⟨hblank, fun h => absurd (hcomma h) List.not_mem_nil⟩
  · intro h
    refine Scan.skipSeparator_of_append isSeparator_nil (List.nil_append _).symm fun c hc => ?_
    exact ⟨(h c hc).1, fun hcomma => absurd hcomma (h c hc).2⟩

/-- A second separator is passed only in front of a comma. -/
theorem Place.skipSeparator_skipSeparator_eq_self_iff {p : Place} :
    p.skipSeparator.skipSeparator = p.skipSeparator ↔
      p.skipSeparator.unread.head? ≠ some ',' := by
  rw [skipSeparator_eq_self_iff]
  constructor
  · intro h hcomma
    exact (h ',' hcomma).2 rfl
  · rintro h c hc
    refine ⟨p.head_skipSeparator c hc, ?_⟩
    rintro rfl
    exact h hc

theorem Place.exists_skipBlanks (p : Place) :
    ∃ blanks, p.unread = blanks ++ p.skipBlanks.unread ∧ IsBlanks blanks ∧
      p.skipBlanks = p.advance blanks.length := by
  refine ⟨p.unread.takeWhile isBlank, ?_, List.all_eq_true.1 List.all_takeWhile, rfl⟩
  rw [unread_skipBlanks, List.takeWhile_append_dropWhile]

theorem Place.head_skipBlanks (p : Place) : ∀ c ∈ p.skipBlanks.unread.head?, isBlank c = false := by
  rw [unread_skipBlanks]
  exact Text.head_dropWhile isBlank p.unread

theorem Place.skipBlanks_of_append {p : Place} {blanks rest : List Char}
    (hunread : p.unread = blanks ++ rest) (hblanks : IsBlanks blanks)
    (hrest : ∀ c ∈ rest.head?, isBlank c = false) : p.skipBlanks = p.advance blanks.length := by
  rw [skipBlanks, hunread, Text.takeWhile_append_of_head hblanks hrest]

theorem Place.longest_name (p : Place) : Longest IsName p.name p.afterName.unread := by
  rw [longest_isName_iff, unread_afterName]
  exact ⟨List.all_eq_true.1 List.all_takeWhile, Text.head_dropWhile isIdentifierChar p.unread⟩

theorem Place.afterName_of_append {p : Place} {name rest : List Char}
    (hunread : p.unread = name ++ rest) (hname : Longest IsName name rest) :
    p.name = name ∧ p.afterName = p.advance name.length := by
  obtain ⟨hname, hrest⟩ := longest_isName_iff.1 hname
  have hnameOf := name_of_append hunread hname hrest
  exact ⟨hnameOf, by rw [afterName, hnameOf]⟩

/-- What stands at a position stands between it and a later one. -/
theorem extract_of_drop_eq_append {text front rest : List Char} {start : Nat}
    (h : text.drop start = front ++ rest) :
    text.extract start (start + front.length) = front := by
  rw [List.extract_eq_take_drop, h, Nat.add_sub_cancel_left, List.take_left]

/-- A front part of what is left stands between two positions of the text. -/
theorem Place.exists_append_iff {text : List Char} {i j : Nat} (hi : i ≤ text.length)
    {P : List Char → Prop} (hne : ∀ {front}, P front → front ≠ []) :
    (∃ front rest, (Place.mk text i).unread = front ++ rest ∧ P front ∧
      Place.mk text j = (Place.mk text i).advance front.length) ↔
      j ≤ text.length ∧ P (text.extract i j) := by
  have hunread : (Place.mk text i).unread = text.drop i := rfl
  rw [hunread]
  constructor
  · rintro ⟨front, rest, hdrop, hfront, hj⟩
    obtain rfl : j = i + front.length := congrArg Place.offset hj
    have hlength := congrArg List.length hdrop
    rw [List.length_drop, List.length_append] at hlength
    refine ⟨by omega, ?_⟩
    rwa [extract_of_drop_eq_append hdrop]
  · rintro ⟨hj, hfront⟩
    rw [List.extract_eq_take_drop] at hfront
    have hlt : i < j := by
      by_contra hle
      exact hne hfront (by rw [Nat.sub_eq_zero_of_le (by omega), List.take_zero])
    refine ⟨_, _, (List.take_append_drop (j - i) _).symm, hfront, ?_⟩
    rw [advance, List.length_take, List.length_drop]
    refine congrArg (Place.mk text) ?_
    change j = i + min (j - i) (text.length - i)
    omega

namespace Scan

/-- A group is read behind blanks: one group, or none where the unit ends. -/
theorem group_eq_ok_iff {p q : Place} {g : List Char} :
    group p = .ok g q ↔
      ∃ blanks rest, p.unread = blanks ++ (g ++ rest) ∧ IsBlanks blanks ∧
        (g = [] ∧ Stops rest ∨ IsGroup g) ∧ q = p.advance (blanks.length + g.length) := by
  constructor
  · intro h
    obtain ⟨blanks, hunread, hblanks, hskip⟩ := p.exists_skipBlanks
    by_cases hstops : Stops p.skipBlanks.unread
    · cases (group_of_stops hstops).symm.trans h
      exact ⟨blanks, _, hunread, hblanks, .inl ⟨rfl, hstops⟩, hskip⟩
    · obtain ⟨c, hc, hcomma, hclose⟩ : ∃ c ∈ p.skipBlanks.unread.head?, c ≠ ',' ∧ c ≠ ')' := by
        simpa [Stops] using hstops
      obtain ⟨rest, hrest⟩ := List.head?_eq_some_iff.1 hc
      by_cases hopen : c = '('
      · subst hopen
        rw [group_of_opens hrest] at h
        split at h
        · next body hbody =>
          cases h
          obtain ⟨hgroup, left, rfl⟩ := closing?_one_eq_some_iff.1 hbody
          refine ⟨blanks, left, by rw [hunread, hrest]; rfl, hblanks, .inr hgroup, ?_⟩
          rw [hskip, Place.advance_advance, List.length_cons]
        · simp [fail] at h
      · simp [group_of_other hrest hopen hclose hcomma, fail] at h
  · rintro ⟨blanks, rest, hunread, hblanks, hgroup, rfl⟩
    have hbehind := Place.unread_advance_of_append hunread
    rcases hgroup with ⟨rfl, hstops⟩ | hgroup
    · have hskip := Place.skipBlanks_of_append hunread hblanks hstops.isBlank_eq_false
      rw [group_of_stops (by rwa [hskip, hbehind]), hskip]
      rfl
    · obtain ⟨inner, hinner, rfl⟩ := hgroup
      have hclosing : closing? 1 ((inner ++ [')']) ++ rest) = some (inner ++ [')']) :=
        closing?_one_eq_some_iff.2 ⟨⟨inner, hinner, rfl⟩, rest, rfl⟩
      have hskip := Place.skipBlanks_of_append hunread hblanks (by simp [isBlank])
      rw [group_of_opens (by rw [hskip, hbehind, List.cons_append]), hskip, hclosing]
      simp only [Place.advance_advance, List.length_cons]

/-- Blanks in front of a unit do not count. -/
theorem unit_skipBlanks (p : Place) : unit p.skipBlanks = unit p := by
  have hskip : p.skipBlanks.skipBlanks = p.skipBlanks :=
    Place.skipBlanks_eq_self p.head_skipBlanks
  have hname : name p.skipBlanks = name p := by rw [name, name, hskip]
  have hsame : name p = .ok p.skipBlanks.name p.skipBlanks.afterName := rfl
  rw [unit, bind_of_eq_ok hsame, bind_of_eq_ok (hname.trans hsame)]

/-- A unit is a name and the group behind it, if no blank stands in front. -/
theorem unit_eq_ok_iff_group {p q : Place} {u : List Char}
    (hblank : ∀ c ∈ p.unread.head?, isBlank c = false) :
    unit p = .ok u q ↔ ∃ g, group p.afterName = .ok g q ∧ u = p.name ++ g := by
  have hskip := Place.skipBlanks_eq_self hblank
  have hname : name p = .ok p.name p.afterName := by rw [name, hskip]
  rw [unit, bind_of_eq_ok hname, bind_eq_ok_iff]
  constructor
  · rintro ⟨g, r, hgroup, hu⟩
    cases hu
    exact ⟨g, hgroup, rfl⟩
  · rintro ⟨g, hgroup, rfl⟩
    exact ⟨g, q, hgroup, rfl⟩

/-- A unit is read where its text stands and no blank does. -/
theorem unit_eq_ok_iff {p q : Place} {u : List Char}
    (hblank : ∀ c ∈ p.unread.head?, isBlank c = false) :
    unit p = .ok u q ↔
      ∃ text rest, p.unread = text ++ rest ∧ UnitForm text rest u ∧ q = p.advance text.length := by
  rw [unit_eq_ok_iff_group hblank]
  constructor
  · rintro ⟨g, hgroup, rfl⟩
    obtain ⟨blanks, rest, hunread, hblanks, hg, rfl⟩ := group_eq_ok_iff.1 hgroup
    have hname := p.longest_name
    have hwhole := p.name_append_unread
    rw [hunread] at hname hwhole
    rw [Place.afterName, Place.advance_advance]
    rcases hg with ⟨rfl, hstops⟩ | hg
    · refine ⟨p.name ++ blanks, rest, by simpa using hwhole.symm, ?_, by simp⟩
      rw [List.append_nil]
      exact .alone (by simpa using hname) hblanks hstops
    · exact ⟨p.name ++ (blanks ++ g), rest, by simpa using hwhole.symm,
        .withGroup hname hblanks hg, by simp⟩
  · rintro ⟨text, rest, hunread, htext, rfl⟩
    cases htext with
    | @alone _ blanks _ hname hblanks hstops =>
      rw [List.append_assoc] at hunread
      obtain ⟨hnameOf, hafter⟩ := Place.afterName_of_append hunread hname
      have hbehind := Place.unread_advance_of_append hunread
      refine ⟨[], group_eq_ok_iff.2 ⟨blanks, rest, ?_, hblanks, .inl ⟨rfl, hstops⟩, ?_⟩, ?_⟩
      · rw [hafter, hbehind]
        rfl
      · rw [hafter, Place.advance_advance, List.length_append, List.length_nil, Nat.add_zero]
      · rw [hnameOf, List.append_nil]
    | @withGroup name blanks g _ hname hblanks hg =>
      rw [List.append_assoc, List.append_assoc] at hunread
      obtain ⟨hnameOf, hafter⟩ := Place.afterName_of_append hunread hname
      have hbehind := Place.unread_advance_of_append hunread
      refine ⟨g, group_eq_ok_iff.2 ⟨blanks, rest, ?_, hblanks, .inr hg, ?_⟩, ?_⟩
      · rw [hafter, hbehind]
      · rw [hafter, Place.advance_advance, List.length_append, List.length_append]
      · rw [hnameOf]

variable {α : Type}

/-- The scan reads exactly the texts of items, by what follows them; of this only the next
character counts. -/
structure ReadsExactly (item : Scan α) (Item : List Char → List Char → α → Prop) : Prop where
  /-- An item is read where its text stands and no blank does. -/
  eq_ok_iff : ∀ {p q : Place} {a : α}, (∀ c ∈ p.unread.head?, isBlank c = false) →
    (item p = .ok a q ↔
      ∃ text rest, p.unread = text ++ rest ∧ Item text rest a ∧ q = p.advance text.length)
  /-- Of what follows an item the next character counts. -/
  congr_head : ∀ {text rest rest' : List Char} {a : α}, Item text rest a →
    rest'.head? = rest.head? → Item text rest' a

theorem readsExactly_argument : ReadsExactly argument UnitForm where
  eq_ok_iff {p q u} hblank := by
    rw [← unit_eq_ok_iff hblank]
    constructor
    · exact unit_of_argument
    · intro h
      rw [argument, h]
  congr_head h hhead := h.congr_head hhead

/-- The scan passes the texts of its values, wherever they stand and whatever follows. -/
structure Spans (scan : Scan α) (Form : List Char → α → Prop) : Prop where
  /-- A value is read where a text of it stands. -/
  eq_ok_iff : ∀ {p q : Place} {a : α}, scan p = .ok a q ↔
    ∃ front rest, p.unread = front ++ rest ∧ Form front a ∧ q = p.advance front.length

/-- What is read as the items of a list has the form of a list. -/
theorem exists_of_items {item : Scan α} {headway : Headway item}
    {Item : List Char → List Char → α → Prop} (hitem : ReadsExactly item Item) {p q : Place}
    {as : List α} (h : items item headway p = .ok as q) :
    ∃ front rest, p.unread = front ++ rest ∧ ListForm Item front as ∧
      q = p.advance front.length := by
  fun_induction items item headway p generalizing as q with
  | case1 => simp [fail] at h
  | case2 => simp at h
  | case3 p hend r hpeek =>
    cases h
    obtain ⟨rest, hrest⟩ := exists_unread_of_peek hpeek
    obtain ⟨sep, hunread, hsep, hskip⟩ := p.exists_skipSeparator
    rw [hrest] at hunread hsep
    refine ⟨sep ++ [')'], rest, by simpa using hunread,
      .close (longest_isSeparator_congr (by rfl) hsep), ?_⟩
    rw [hskip, Place.advance_advance, List.length_append, List.length_singleton]
  | case4 => simp at h
  | case5 => simp at h
  | case6 p hend c r hpeek hclose a s hscan as' t hrest ih =>
    cases h
    obtain ⟨left, hleft⟩ := exists_unread_of_peek hpeek
    obtain ⟨sep, hunread, hsep, hskip⟩ := p.exists_skipSeparator
    -- The item is read behind the separator, and the rest of the list behind the item.
    obtain ⟨text, rest, htext, hform, rfl⟩ := (hitem.eq_ok_iff p.head_skipSeparator).1 hscan
    obtain ⟨front, more, hfront, hlist, rfl⟩ := ih hrest
    obtain rfl : rest = front ++ more := by rw [← hfront, Place.unread_advance_of_append htext]
    have hhead : (front ++ more).head? = front.head? :=
      List.head?_append_of_ne_nil _ hlist.ne_nil
    have hheads : (text ++ front).head? = p.skipSeparator.unread.head? := by
      rw [htext, List.head?_append, List.head?_append, hhead]
    refine ⟨sep ++ (text ++ front), more, ?_, .item (longest_isSeparator_congr hheads hsep) ?_
      (hitem.congr_head hform hhead.symm) hlist, ?_⟩
    · rw [hunread, htext]
      simp only [List.append_assoc]
    · rw [hheads, hleft]
      simpa using hclose
    · rw [hskip, Place.advance_advance, Place.advance_advance, List.length_append,
        List.length_append]

/-- What has the form of a list is read as its items. -/
theorem items_of_listForm {item : Scan α} {headway : Headway item}
    {Item : List Char → List Char → α → Prop} (hitem : ReadsExactly item Item)
    {front : List Char} {as : List α} (hlist : ListForm Item front as) {p : Place}
    {rest : List Char} (hunread : p.unread = front ++ rest) :
    items item headway p = .ok as (p.advance front.length) := by
  induction hlist generalizing p with
  | @close sep hsep =>
    rw [List.append_assoc] at hunread
    rw [items_nil (longest_isSeparator_iff.1 hsep).1 hunread, List.length_append,
      List.length_singleton]
  | @item sep text behind a as hsep hclose hform hlist ih =>
    simp only [List.append_assoc] at hunread
    have hhead : (behind ++ rest).head? = behind.head? :=
      List.head?_append_of_ne_nil _ hlist.ne_nil
    have hheads : (text ++ (behind ++ rest)).head? = (text ++ behind).head? := by
      rw [List.head?_append, hhead, ← List.head?_append]
    obtain ⟨hsep, hstop⟩ := longest_isSeparator_iff.1 (longest_isSeparator_congr hheads hsep)
    have hbehind := Place.unread_advance_of_append hunread
    have hblank : ∀ c ∈ (p.advance sep.length).unread.head?, isBlank c = false := by
      rw [hbehind]
      exact fun c hc => (hstop c hc).1
    -- The item is read where the separator ends, and the induction goes on behind its text.
    have hscan := (hitem.eq_ok_iff hblank).2
      ⟨text, behind ++ rest, hbehind, hitem.congr_head hform hhead, rfl⟩
    have hitems := ih (Place.unread_advance_of_append hbehind)
    rw [← hheads] at hclose
    cases hnext : text ++ (behind ++ rest) with
    | nil => simp [hlist.ne_nil] at hnext
    | cons c left =>
      rw [hnext] at hunread hstop hclose
      obtain ⟨hblank, hcomma⟩ := hstop c rfl
      rw [items_cons hsep hunread hblank hcomma (by simpa using hclose) hscan hitems]
      simp only [Place.advance_advance, List.length_append, Nat.add_assoc]

/-- The items of a list are read wherever its text stands. -/
theorem spans_items {item : Scan α} {headway : Headway item}
    {Item : List Char → List Char → α → Prop} (hitem : ReadsExactly item Item) :
    Spans (items item headway) (ListForm Item) where
  eq_ok_iff := by
    refine ⟨exists_of_items hitem, ?_⟩
    rintro ⟨front, rest, hunread, hlist, rfl⟩
    exact items_of_listForm hitem hlist hunread

/-- Behind the parenthesis that opens it, a list is read as it stands. -/
theorem opened_eq_ok_iff {list : Scan (List α)} {Form : List Char → List α → Prop}
    (hlist : Spans list Form) {p q : Place} {as : List α} (hopen : p.unread.head? = some '(') :
    opened list p = .ok as q ↔
      ∃ front rest, p.unread = front ++ rest ∧ Opened Form front as ∧
        q = p.advance front.length := by
  obtain ⟨behind, hbehind⟩ := List.head?_eq_some_iff.1 hopen
  obtain ⟨hopened, hadvance⟩ := opened_of_unread list hbehind
  rw [hopened, hlist.eq_ok_iff, hadvance, hbehind]
  constructor
  · rintro ⟨front, rest, rfl, hfront, rfl⟩
    refine ⟨'(' :: front, rest, rfl, ⟨front, rfl, hfront⟩, ?_⟩
    rw [Place.advance_advance, List.length_cons, Nat.add_comm]
  · rintro ⟨_, rest, hfront, ⟨front, rfl, htext⟩, rfl⟩
    refine ⟨front, rest, List.tail_eq_of_cons_eq hfront, htext, ?_⟩
    rw [Place.advance_advance, List.length_cons, Nat.add_comm]

theorem spans_units : Spans units (ListForm UnitForm) := spans_items readsExactly_argument

/-- A mark is passed with the blanks in front of it. -/
theorem mark_eq_ok_iff {c : Char} (hc : isBlank c = false) {reason : Reason} {p q : Place} :
    mark c reason p = .ok () q ↔
      ∃ blanks rest, p.unread = blanks ++ c :: rest ∧ IsBlanks blanks ∧
        q = p.advance (blanks.length + 1) := by
  constructor
  · intro h
    obtain ⟨blanks, hunread, hblanks, hskip⟩ := p.exists_skipBlanks
    rw [mark_apply] at h
    split at h
    · next hpeek =>
      cases h
      obtain ⟨rest, hrest⟩ := List.head?_eq_some_iff.1 hpeek
      rw [hrest] at hunread
      exact ⟨blanks, rest, hunread, hblanks, by rw [hskip, Place.advance_advance]⟩
    · simp [fail] at h
  · rintro ⟨blanks, rest, hunread, hblanks, rfl⟩
    have hskip : p.skipBlanks = p.advance blanks.length :=
      Place.skipBlanks_of_append hunread hblanks (by simpa using hc)
    have hpeek : p.skipBlanks.peek? = some c := by
      rw [hskip, Place.peek?, Place.unread_advance_of_append hunread, List.head?_cons]
    rw [mark_apply, if_pos hpeek, hskip, Place.advance_advance]

theorem decodeName_eq_ok_iff {decoder : Decoder} {dump : List Char} {p q : Place} {name : String} :
    decodeName decoder dump p = .ok name q ↔ decoder (String.ofList dump) = .ok name ∧ q = p := by
  constructor
  · intro h
    refine ⟨?_, eq_of_decodeName h⟩
    rw [decodeName] at h
    split at h
    · next hname =>
      cases h
      exact hname
    · split at h <;> simp at h
  · rintro ⟨hname, rfl⟩
    exact decodeName_of_eq_ok hname _

/-- What is read as a named argument has the form of one. -/
theorem exists_of_namedUnit {decoder : Decoder} {p q : Place} {pair : String × List Char}
    (h : namedUnit decoder p = .ok pair q) :
    ∃ text rest, p.unread = text ++ rest ∧ NamedForm decoder text rest pair ∧
      q = p.advance text.length := by
  simp only [namedUnit, bind_eq_ok_iff] at h
  obtain ⟨dump, r, hdump, name, s, hname, _, t, hmark, _, v, hskip, u, w, hunit, hpair⟩ := h
  cases hdump
  cases hskip
  cases hpair
  obtain ⟨hdecoded, rfl⟩ := decodeName_eq_ok_iff.1 hname
  obtain ⟨blanks, behind, hcolon, hblanks, rfl⟩ := (mark_eq_ok_iff (by decide)).1 hmark
  have hbehind := Place.unread_advance_succ_of_append hcolon
  obtain ⟨blanks', hunread, hblanks', hskip⟩ :=
    (p.afterName.advance (blanks.length + 1)).exists_skipBlanks
  -- The unit stands behind the blanks that follow the colon.
  have hhead := (p.afterName.advance (blanks.length + 1)).head_skipBlanks
  obtain ⟨text, rest, htext, hunitForm, rfl⟩ := (readsExactly_argument.eq_ok_iff hhead).1 hunit
  rw [htext] at hunread hhead
  refine ⟨p.name ++ (blanks ++ ':' :: (blanks' ++ text)), rest, ?_,
    .mk p.longest_name.1 hdecoded hblanks hblanks' hhead hunitForm, ?_⟩
  · rw [← p.name_append_unread, hcolon, ← hbehind, hunread]
    simp only [List.append_assoc, List.cons_append]
  · rw [hskip, Place.afterName]
    simp only [Place.advance_advance, List.length_append, List.length_cons]
    exact congrArg p.advance (by omega)

/-- What has the form of a named argument is read as one. -/
theorem namedUnit_of_namedForm {decoder : Decoder} {text rest : List Char}
    {pair : String × List Char} (h : NamedForm decoder text rest pair) {p : Place}
    (hunread : p.unread = text ++ rest) :
    namedUnit decoder p = .ok pair (p.advance text.length) := by
  obtain @⟨dump, blanks, blanks', text, _, u, name, hdump, hname, hblanks, hblanks', hhead, htext⟩ :=
    h
  simp only [List.append_assoc, List.cons_append] at hunread
  -- The dump and the colon are passed one after the other, and then the blanks behind the colon.
  obtain ⟨hdumpOf, hafter⟩ := Place.afterName_of_append hunread
    (longest_isName_of_isBlanks hdump hblanks (by simp [isIdentifierChar]))
  have hcolon := Place.unread_advance_of_append hunread
  rw [← hafter] at hcolon
  have hmark : mark ':' .colonExpected p.afterName =
      .ok () (p.afterName.advance (blanks.length + 1)) :=
    (mark_eq_ok_iff (by decide)).2 ⟨blanks, _, hcolon, hblanks, rfl⟩
  have hbehind := Place.unread_advance_succ_of_append hcolon
  have hskip := Place.skipBlanks_of_append hbehind hblanks' hhead
  have hunit := Place.unread_advance_of_append hbehind
  rw [← hskip] at hunit
  have hargument := (readsExactly_argument.eq_ok_iff (hunit ▸ hhead)).2
    ⟨text, rest, hunit, htext, rfl⟩
  simp only [namedUnit, bind_eq_ok_iff]
  refine ⟨dump, p.afterName, ?_, name, _, decodeName_of_eq_ok hname _, (), _, hmark, (), _, rfl,
    u, _, hargument, ?_⟩
  · rw [identifier, hdumpOf]
  · rw [hskip, hafter]
    simp only [Place.advance_advance, List.length_append, List.length_cons]
    exact congrArg _ (congrArg p.advance (by omega))

theorem readsExactly_namedUnit (decoder : Decoder) :
    ReadsExactly (namedUnit decoder) (NamedForm decoder) where
  eq_ok_iff _ := by
    refine ⟨exists_of_namedUnit, ?_⟩
    rintro ⟨text, rest, hunread, htext, rfl⟩
    exact namedUnit_of_namedForm htext hunread
  congr_head h hhead := h.congr_head hhead

/-- A list of arguments is read exactly where one stands: from its opening parenthesis to where
the grammar says, with the arguments that the grammar gives it. Any other text behind the
parenthesis is malformed. -/
theorem arguments_eq_ok_iff (text : List Char) (i : Nat) (hopen : text[i]? = some '(') :
    (∀ us j, arguments ⟨text, i⟩ = .ok us ⟨text, j⟩ ↔
      j ≤ text.length ∧ Opened (ListForm UnitForm) (text.extract i j) us) ∧
    ((¬ ∃ us j, j ≤ text.length ∧ Opened (ListForm UnitForm) (text.extract i j) us) →
      ∃ fault causes q, arguments ⟨text, i⟩ = .error (.malformed fault causes) q) := by
  have hlt : i < text.length := (List.getElem?_eq_some_iff.1 hopen).1
  have hhead : (Place.mk text i).unread.head? = some '(' := by
    rw [Place.unread, List.head?_drop, hopen]
  have hiff (us : List (List Char)) (j : Nat) : arguments ⟨text, i⟩ = .ok us ⟨text, j⟩ ↔
      j ≤ text.length ∧ Opened (ListForm UnitForm) (text.extract i j) us := by
    rw [arguments, opened_eq_ok_iff spans_units hhead]
    exact Place.exists_append_iff hlt.le fun h => h.ne_nil
  refine ⟨hiff, fun hnone => ?_⟩
  have hsafe := safe_arguments.safeAt (p := ⟨text, i⟩) hlt.le
  cases hscan : arguments ⟨text, i⟩ with
  | ok us q =>
    -- The place where a list ends is one in the same text.
    obtain ⟨front, rest, -, -, rfl⟩ := (opened_eq_ok_iff spans_units hhead).1 hscan
    exact absurd ⟨us, _, (hiff us _).1 hscan⟩ hnone
  | error fault q =>
    obtain ⟨f, causes, rfl, -⟩ := hsafe.structural hscan
    exact ⟨f, causes, q, rfl⟩

/-- Blanks in many places, a comma too many and one too few. -/
theorem arguments_eq_ok_iff_mixed :
    arguments ⟨"T( a ,, b (c,d)e )x".toList, 1⟩ =
      .ok ["a".toList, [], "b(c,d)".toList, "e".toList] ⟨"T( a ,, b (c,d)e )x".toList, 18⟩ := by
  have hgroup : IsGroup "(c,d)".toList := ⟨"c,d".toList, .of_forall_ne (by simp), rfl⟩
  have hend : ListForm UnitForm ([] ++ [')']) [] := .close (by decide)
  have he : ListForm UnitForm ([] ++ (("e".toList ++ " ".toList) ++ _)) ["e".toList] :=
    .item (by decide) (by decide) (.alone (by decide) (by decide) .close) hend
  have hb : ListForm UnitForm (", ".toList ++ (("b".toList ++ (" ".toList ++ "(c,d)".toList)) ++ _))
      ["b(c,d)".toList, "e".toList] :=
    .item (by decide) (by decide) (.withGroup (by decide) (by decide) hgroup) he
  have hnone : ListForm UnitForm (",".toList ++ (([] ++ []) ++ _)) _ :=
    .item (by decide) (by decide) (.alone (by decide) (by decide) .comma) hb
  have ha : ListForm UnitForm (" ".toList ++ (("a".toList ++ " ".toList) ++ _)) _ :=
    .item (by decide) (by decide) (.alone (by decide) (by decide) .comma) hnone
  exact ((arguments_eq_ok_iff _ 1 rfl).1 _ 18).2 ⟨by decide, _, rfl, ha⟩

end Scan

end SchemaTypes.ClassName
