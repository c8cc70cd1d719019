import SchemaTypes.Proofs.ClassName.Extent

/-!
# Empty units in lists of arguments

A unit may be empty, and a list takes it as an argument like any other. Where this happens is seen
from the text of the list: two commas, or a colon and what ends its unit, have nothing but blanks
between them, and stand outside of all groups. The blanks at the beginning of a list, at its end and
around a single comma make no argument, and what stands inside a group belongs to one unit.

## Main definitions

* `NothingBetween`: a mark and an end with nothing between them, outside of all groups.
* `Hides`: texts in which a mark stands inside groups only.
* `HasGap`: texts with nothing between a mark and an end, outside of groups or inside.

## Main results

* `UnitForm.eq_nil_iff`: a unit is empty where the list goes on at once.
* `Scan.nil_mem_arguments_iff`, `Scan.nil_mem_namedUnits_iff`: when a list has an empty unit.
* `Scan.hasGap_of_mem_arguments`, `Scan.hasGap_of_mem_userType`: what is missing in an argument is
  missing in its list.
-/

namespace SchemaTypes.ClassName

/-- Outside of all groups, a mark is followed by one of the ends, with nothing but blanks between
them. -/
def NothingBetween (mark : Char) (ends text : List Char) : Prop :=
  ∃ front blanks c rest, text = front ++ mark :: (blanks ++ c :: rest) ∧ Balanced front ∧
    IsBlanks blanks ∧ c ∈ ends

/-- The mark stands nowhere in the text outside of its groups. -/
def Hides (mark : Char) (text : List Char) : Prop :=
  ∀ front rest, text = front ++ mark :: rest → ¬ Balanced front

/-- What follows a balanced text is balanced if both are together. -/
theorem Balanced.of_append {front rest : List Char} (hfront : Balanced front)
    (h : Balanced (front ++ rest)) : Balanced rest where
  count_eq := by
    have hwhole := h.count_eq
    have := hfront.count_eq
    simp only [List.count_append] at hwhole
    omega
  count_le {left} hleft := by
    have hwhole := h.count_le ((List.prefix_append_right_inj front).2 hleft)
    have := hfront.count_eq
    simp only [List.count_append] at hwhole
    omega

/-- A closing parenthesis at the beginning has no counterpart. -/
theorem not_balanced_cons_close (text : List Char) : ¬ Balanced (')' :: text) := by
  intro h
  have : [')'].count ')' ≤ [')'].count '(' := h.count_le (List.prefix_append [')'] text)
  simp at this

theorem hides_of_not_mem {mark : Char} {text : List Char} (h : mark ∉ text) : Hides mark text := by
  rintro front rest rfl
  exact absurd (List.mem_append_right _ (.head _)) h

theorem IsBlanks.hides {mark : Char} {blanks : List Char} (h : IsBlanks blanks)
    (hmark : isBlank mark = false) : Hides mark blanks :=
  hides_of_not_mem fun hmem => Bool.false_ne_true (hmark.symm.trans (h mark hmem))

theorem IsName.hides {mark : Char} {name : List Char} (h : IsName name)
    (hmark : isIdentifierChar mark = false) : Hides mark name :=
  hides_of_not_mem fun hmem => Bool.false_ne_true (hmark.symm.trans (h mark hmem))

/-- Behind a balanced text that hides a mark, the mark stands in what follows. -/
theorem Hides.exists_append {mark : Char} {text rest front behind : List Char}
    (hhides : Hides mark text) (hbalanced : Balanced text)
    (h : text ++ rest = front ++ mark :: behind) (hfront : Balanced front) :
    ∃ left, front = text ++ left ∧ rest = left ++ mark :: behind ∧ Balanced left := by
  -- The mark stands in what follows, or in the text itself, but there inside a group.
  rcases List.append_eq_append_iff.1 h with ⟨left, rfl, hleft⟩ | ⟨left, rfl, hleft⟩
  · exact ⟨left, rfl, hleft, hbalanced.of_append hfront⟩
  · cases left with
    | nil => exact ⟨[], by simp, hleft.symm, .nil⟩
    | cons c left =>
      obtain rfl : mark = c := (List.cons.inj hleft).1
      exact absurd hfront (hhides front left rfl)

theorem Hides.append {mark : Char} {first second : List Char} (hfirst : Hides mark first)
    (hbalanced : Balanced first) (hsecond : Hides mark second) : Hides mark (first ++ second) := by
  intro front rest h hfront
  obtain ⟨left, -, hleft, hbehind⟩ := hfirst.exists_append hbalanced h hfront
  exact hsecond left rest hleft hbehind

/-- All of a group but its last parenthesis is inside it. -/
theorem IsGroup.hides {mark : Char} {group : List Char} (h : IsGroup group) (hmark : mark ≠ '(') :
    Hides mark group := by
  rintro front rest rfl hfront
  have hne : front ≠ [] := by
    rintro rfl
    obtain ⟨inner, -, hinner⟩ := h
    exact hmark (List.cons.inj hinner).1
  -- The group is open until its last parenthesis, behind which nothing of it is left.
  exact h.closes.count_ne (List.prefix_append _ _) hne (by simp) hfront.count_eq

variable {mark : Char} {ends text rest : List Char}

/-- A balanced text that hides the mark may be taken away. -/
theorem nothingBetween_append (h : Balanced text) (hhides : Hides mark text) :
    NothingBetween mark ends (text ++ rest) ↔ NothingBetween mark ends rest := by
  constructor
  · rintro ⟨front, blanks, c, behind, htext, hfront, hblanks, hc⟩
    obtain ⟨left, -, hleft, hbehind⟩ := hhides.exists_append h htext hfront
    exact ⟨left, blanks, c, behind, hleft, hbehind, hblanks, hc⟩
  · rintro ⟨front, blanks, c, behind, rfl, hfront, hblanks, hc⟩
    exact ⟨text ++ front, blanks, c, behind, (List.append_assoc _ _ _).symm, h.append hfront,
      hblanks, hc⟩

theorem not_nothingBetween_close (hmark : mark ≠ ')') :
    ¬ NothingBetween mark ends (')' :: rest) := by
  rintro ⟨front, blanks, c, behind, htext, hfront, -, -⟩
  cases front with
  | nil => exact hmark (List.cons.inj htext).1.symm
  | cons d front =>
    obtain rfl : ')' = d := (List.cons.inj htext).1
    exact not_balanced_cons_close front hfront

/-- Behind a mark and blanks, nothing is between if an end follows, or further on. -/
theorem nothingBetween_mark {blanks : List Char} (hmark : isBlank mark = false)
    (hparenthesis : mark ≠ '(' ∧ mark ≠ ')') (hends : ends ⊆ [',', ')'])
    (hblanks : IsBlanks blanks) (hrest : ∀ c ∈ rest.head?, isBlank c = false) :
    NothingBetween mark ends (mark :: (blanks ++ rest)) ↔
      (∃ c ∈ rest.head?, c ∈ ends) ∨ NothingBetween mark ends rest := by
  have hbalanced : Balanced [mark] := .of_forall_ne (by simpa using hparenthesis)
  have hbehind : NothingBetween mark ends (blanks ++ rest) ↔ NothingBetween mark ends rest :=
    nothingBetween_append hblanks.balanced (hblanks.hides hmark)
  rw [← hbehind]
  -- Nothing is behind this mark, where an end follows, or behind one that stands further on.
  constructor
  · rintro ⟨front, blanks', c, behind, htext, hfront, hblanks', hc⟩
    cases front with
    | nil =>
      have hhead : ∀ d ∈ (c :: behind).head?, isBlank d = false := by
        rintro _ ⟨⟩
        rcases List.mem_pair.1 (hends hc) with rfl | rfl <;> rfl
      obtain ⟨-, rfl⟩ :=
        Text.append_inj_of_head hblanks hblanks' hrest hhead (List.cons.inj htext).2
      exact .inl ⟨c, rfl, hc⟩
    | cons d front =>
      obtain rfl : mark = d := (List.cons.inj htext).1
      exact .inr ⟨front, blanks', c, behind, (List.cons.inj htext).2, hbalanced.of_append hfront,
        hblanks', hc⟩
  · rintro (⟨c, hc, hmem⟩ | ⟨front, blanks', c, behind, htext, hfront, hblanks', hc⟩)
    · obtain ⟨behind, rfl⟩ := List.head?_eq_some_iff.1 hc
      exact ⟨[], blanks, c, behind, rfl, .nil, hblanks, hmem⟩
    · exact ⟨mark :: front, blanks', c, behind, congrArg (mark :: ·) htext,
        hbalanced.append hfront, hblanks', hc⟩

/-- A run of characters is empty if what stands where it starts does not belong to it. -/
theorem eq_nil_of_head {p : Char → Bool} {front : List Char} (hfront : ∀ c ∈ front, p c = true)
    (hhead : ∀ c ∈ (front ++ rest).head?, p c = false) : front = [] := by
  have hempty := Text.takeWhile_eq_nil_of_head hhead
  rw [List.takeWhile_append_of_pos hfront] at hempty
  exact (List.append_eq_nil_iff.1 hempty).1

variable {u : List Char}

/-- A unit is empty if and only if the list goes on where its text starts. -/
theorem UnitForm.eq_nil_iff (h : UnitForm text rest u)
    (hblank : ∀ c ∈ (text ++ rest).head?, isBlank c = false) :
    u = [] ↔ Stops (text ++ rest) := by
  -- Where the list goes on stands no name and no group, and by assumption no blank.
  cases h with
  | alone hname hblanks hstops =>
    constructor
    · rintro rfl
      rw [List.nil_append] at hblank ⊢
      rwa [eq_nil_of_head hblanks hblank]
    · intro h
      rw [List.append_assoc] at h
      exact eq_nil_of_head hname.1 h.isIdentifierChar_eq_false
  | withGroup hname hblanks hgroup =>
    obtain ⟨inner, -, rfl⟩ := hgroup
    constructor
    · intro h
      simp at h
    · intro h
      rw [List.append_assoc] at h
      obtain rfl := eq_nil_of_head hname.1 h.isIdentifierChar_eq_false
      rw [List.nil_append, List.append_assoc] at hblank h
      obtain rfl := eq_nil_of_head hblanks hblank
      exact absurd (h '(' rfl) (by decide)

/-- In the text of a unit, marks stand inside its group only. -/
theorem UnitForm.hides (h : UnitForm text rest u) (hidentifier : isIdentifierChar mark = false)
    (hblank : isBlank mark = false) (hopen : mark ≠ '(') : Hides mark text := by
  cases h with
  | alone hname hblanks _ =>
    exact (hname.1.hides hidentifier).append hname.1.balanced (hblanks.hides hblank)
  | withGroup hname hblanks hgroup =>
    exact (hname.1.hides hidentifier).append hname.1.balanced
      ((hblanks.hides hblank).append hblanks.balanced (hgroup.hides hopen))

/-- A text that is left goes on like a list if it starts with a comma or a closing parenthesis. -/
theorem stops_iff_exists_head (hne : text ≠ []) :
    Stops text ↔ ∃ c ∈ text.head?, c ∈ [',', ')'] := by
  obtain ⟨c, text, rfl⟩ := List.exists_cons_of_ne_nil hne
  simp [Stops]

/-- In front of what is left of a list, a unit is empty if and only if a comma or a closing
parenthesis stands where its text starts. -/
theorem UnitForm.eq_nil_iff_exists_head (h : UnitForm text rest u) (hrest : rest ≠ [])
    (hblank : ∀ c ∈ (text ++ rest).head?, isBlank c = false) :
    u = [] ↔ ∃ c ∈ (text ++ rest).head?, c ∈ [',', ')'] := by
  rw [h.eq_nil_iff hblank, stops_iff_exists_head (by simp [hrest])]

/-- What a text in front of a list starts with does not depend on what follows the list. -/
theorem head?_append_append (hrest : rest ≠ []) (text more : List Char) :
    (text ++ (rest ++ more)).head? = (text ++ rest).head? := by
  rw [← List.append_assoc, List.head?_append_of_ne_nil _ (by simp [hrest])]

/-- Of two commas with nothing between them, a separator takes the first. -/
theorem nothingBetween_separator {sep : List Char} (h : Longest IsSeparator sep rest) :
    NothingBetween ',' [','] (sep ++ rest) ↔
      rest.head? = some ',' ∨ NothingBetween ',' [','] rest := by
  obtain ⟨hsep, hrest⟩ := longest_isSeparator_iff.1 h
  have hisBlanks {part : List Char} (hpart : part ⊆ sep) (hcomma : ',' ∉ part) :
      IsBlanks part := by
    intro c hc
    refine (hsep.1 c (hpart hc)).resolve_right ?_
    rintro rfl
    exact hcomma hc
  -- A separator with a comma has blanks on both sides of it; one without a comma is only left
  -- where no comma follows.
  by_cases hcomma : ',' ∈ sep
  · obtain ⟨front, behind, rfl⟩ := List.append_of_mem hcomma
    have hcount := hsep.2
    rw [List.count_append, List.count_cons_self] at hcount
    have hfront : IsBlanks front := hisBlanks (List.subset_append_left _ _)
      (List.count_eq_zero.1 (by omega))
    have hbehind : IsBlanks behind := hisBlanks
      (fun c hc => List.mem_append_right _ (.tail _ hc)) (List.count_eq_zero.1 (by omega))
    rw [List.append_assoc, List.cons_append,
      nothingBetween_append hfront.balanced (hfront.hides (by decide)),
      nothingBetween_mark (by decide) (by decide) (by simp) hbehind fun c hc => (hrest c hc).1]
    simp
  · have hblanks : IsBlanks sep := hisBlanks (List.Subset.refl _) hcomma
    have hhead : rest.head? ≠ some ',' := fun hhead => hcomma ((hrest _ hhead).2 rfl)
    rw [nothingBetween_append hblanks.balanced (hblanks.hides (by decide)), or_iff_right hhead]

/-- A list has an empty argument if and only if two commas have nothing between them, whatever
follows the list. -/
theorem ListForm.nil_mem_iff {us : List (List Char)} (h : ListForm UnitForm text us)
    (more : List Char) : [] ∈ us ↔ NothingBetween ',' [','] (text ++ more) := by
  induction h with
  | @close sep hsep =>
    have hsep : Longest IsSeparator sep (')' :: more) :=
      longest_isSeparator_congr (by rfl) hsep
    rw [List.append_assoc, List.singleton_append, nothingBetween_separator hsep,
      or_iff_left (not_nothingBetween_close (by decide))]
    simp
  | @item sep text behind u us hsep hclose hform hlist ih =>
    have hhead := head?_append_append hlist.ne_nil text more
    have hblank := fun c hc => ((longest_isSeparator_iff.1 hsep).2 c hc).1
    -- No parenthesis ends the list here, so that only a comma can leave the unit empty.
    have hnil : u = [] ↔ (text ++ (behind ++ more)).head? = some ',' := by
      rw [hform.eq_nil_iff_exists_head hlist.ne_nil hblank, hhead]
      refine ⟨?_, fun hcomma => ⟨',', hcomma, .head _⟩⟩
      rintro ⟨c, hc, hmem⟩
      rcases List.mem_pair.1 hmem with rfl | rfl
      · exact hc
      · exact absurd hc hclose
    rw [List.append_assoc, List.append_assoc,
      nothingBetween_separator (longest_isSeparator_congr hhead hsep),
      nothingBetween_append hform.balanced (hform.hides (by decide) (by decide) (by decide)),
      ← ih, ← hnil, List.mem_cons, eq_comm]

/-- A list of named units has an empty one if and only if a colon has nothing between it and what
ends its unit, whatever follows the list. -/
theorem ListForm.exists_nil_mem_iff {decoder : Decoder} {pairs : List (String × List Char)}
    (h : ListForm (NamedForm decoder) text pairs) (more : List Char) :
    (∃ name, (name, []) ∈ pairs) ↔ NothingBetween ':' [',', ')'] (text ++ more) := by
  have hsepHides {sep : List Char} (hsep : IsSeparator sep) : Hides ':' sep :=
    hides_of_not_mem fun hmem => absurd (hsep.1 _ hmem) (by decide)
  induction h with
  | @close sep hsep =>
    rw [List.append_assoc, List.singleton_append,
      nothingBetween_append hsep.1.balanced (hsepHides hsep.1)]
    simp [not_nothingBetween_close]
  | @item sep text behind pair pairs hsep hclose hform hlist ih =>
    cases hform with
    | @mk dump blanks blanks' text _ u name hdump _ hblanks hblanks' hhead hform =>
      have hsame := head?_append_append hlist.ne_nil text more
      have hnil : u = [] ↔ ∃ c ∈ (text ++ (behind ++ more)).head?, c ∈ [',', ')'] := by
        rw [hform.eq_nil_iff_exists_head hlist.ne_nil hhead, hsame]
      have hmem : (∃ name', (name', []) ∈ (name, u) :: pairs) ↔
          u = [] ∨ ∃ name', (name', []) ∈ pairs := by
        simp [exists_or, eq_comm]
      -- Separator, dump and blanks are passed; behind the colon the unit is empty or is passed.
      simp only [List.append_assoc, List.cons_append]
      rw [nothingBetween_append hsep.1.balanced (hsepHides hsep.1),
        nothingBetween_append hdump.balanced (hdump.hides (by decide)),
        nothingBetween_append hblanks.balanced (hblanks.hides (by decide)),
        nothingBetween_mark (by decide) (by decide) (by simp) hblanks' (hsame ▸ hhead),
        nothingBetween_append hform.balanced (hform.hides (by decide) (by decide) (by decide)),
        hmem, hnil]
      exact or_congr_right ih

/-- Somewhere in the text, outside of groups or inside, a mark is followed by one of the ends with
nothing but blanks between them. -/
def Gap (mark : Char) (ends text : List Char) : Prop :=
  ∃ blanks c, IsBlanks blanks ∧ c ∈ ends ∧ mark :: (blanks ++ [c]) <:+: text

/-- Somewhere in the text an argument is missing between two commas or behind a colon. -/
def HasGap (text : List Char) : Prop := Gap ',' [','] text ∨ Gap ':' [',', ')'] text

theorem Gap.mono (h : Gap mark ends text) {whole : List Char} (hwhole : text <:+: whole) :
    Gap mark ends whole := by
  obtain ⟨blanks, c, hblanks, hc, hgap⟩ := h
  exact ⟨blanks, c, hblanks, hc, hgap.trans hwhole⟩

theorem HasGap.mono (h : HasGap text) {whole : List Char} (hwhole : text <:+: whole) :
    HasGap whole :=
  h.imp (·.mono hwhole) (·.mono hwhole)

theorem NothingBetween.gap (h : NothingBetween mark ends text) : Gap mark ends text := by
  obtain ⟨front, blanks, c, rest, rfl, -, hblanks, hc⟩ := h
  exact ⟨blanks, c, hblanks, hc, front, rest, by simp⟩

/-- What is missing in a unit is missing in its group, which is a part of its text. -/
theorem UnitForm.gap (h : UnitForm text rest u) (hmark : isIdentifierChar mark = false)
    (hgap : Gap mark ends u) : Gap mark ends text := by
  obtain ⟨blanks, c, hblanks, hc, front, behind, hu⟩ := hgap
  have hnone {name : List Char} (hname : IsName name) : mark ∉ name := fun hmem =>
    Bool.false_ne_true (hmark.symm.trans (hname mark hmem))
  cases h with
  | alone hlongest =>
    refine absurd ?_ (hnone hlongest.1)
    rw [← hu]
    simp
  | @withGroup name blanks' group _ hlongest _ _ =>
    rw [List.append_assoc] at hu
    -- The name has no mark, so that it stands in the group, together with all that follows it.
    have hgroup : mark :: (blanks ++ [c]) <:+: group := by
      rcases List.append_eq_append_iff.1 hu with ⟨left, rfl, hleft⟩ | ⟨left, rfl, hleft⟩
      · cases left with
        | nil => exact ⟨[], behind, hleft⟩
        | cons d left =>
          obtain rfl : mark = d := (List.cons.inj hleft).1
          exact absurd (List.mem_append_right _ (.head _)) (hnone hlongest.1)
      · exact ⟨left, behind, by rw [hleft, List.append_assoc]⟩
    exact ⟨blanks, c, hblanks, hc,
      hgroup.trans ((List.suffix_append blanks' group).trans (List.suffix_append name _)).isInfix⟩

theorem UnitForm.hasGap (h : UnitForm text rest u) (hgap : HasGap u) : HasGap text :=
  hgap.imp (h.gap (by decide)) (h.gap (by decide))

/-- The text of an item is a part of the text of its list. -/
theorem ListForm.exists_of_mem {α : Type} {Item : List Char → List Char → α → Prop} {as : List α}
    (h : ListForm Item text as) {a : α} (ha : a ∈ as) :
    ∃ part rest, Item part rest a ∧ part <:+: text := by
  induction h with
  | close => cases ha
  | @item sep part behind b bs _ _ hform _ ih =>
    rcases List.mem_cons.1 ha with rfl | ha
    · exact ⟨part, behind, hform, sep, behind, List.append_assoc _ _ _⟩
    · obtain ⟨part', rest, hpart, hwhole⟩ := ih ha
      exact ⟨part', rest, hpart, hwhole.trans
        ((List.suffix_append part behind).trans (List.suffix_append sep _)).isInfix⟩

theorem NamedForm.exists_unitForm {decoder : Decoder} {pair : String × List Char}
    (h : NamedForm decoder text rest pair) :
    ∃ part, UnitForm part rest pair.2 ∧ part <:+ text := by
  cases h with
  | @mk dump blanks blanks' part _ u name _ _ _ _ _ hform =>
    exact ⟨part, hform, dump ++ (blanks ++ ':' :: blanks'), by simp⟩

namespace Scan

variable {p q : Place}

/-- A list of arguments is read with an empty one if and only if two commas of it have nothing
between them. -/
theorem nil_mem_arguments_iff {us : List (List Char)} (h : arguments p = .ok us q) :
    [] ∈ us ↔ ∃ behind, p.unread = '(' :: behind ∧ NothingBetween ',' [','] behind := by
  rw [arguments, opened_apply] at h
  cases hunread : p.unread with
  | nil =>
    rw [hunread] at h
    cases h
    simp
  | cons c behind =>
    have hbehind : (p.advance 1).unread = behind := by
      rw [Place.unread_advance, hunread]
      rfl
    simp only [hunread] at h
    split at h
    · next hopen =>
      obtain ⟨front, rest, hfront, hlist, -⟩ := spans_units.eq_ok_iff.1 h
      rw [hlist.nil_mem_iff rest, ← hfront, hbehind, hopen]
      simp
    · cases h

/-- A list of named units is read with an empty one if and only if a colon of it has nothing between
it and what ends its unit. -/
theorem nil_mem_namedUnits_iff {decoder : Decoder} {bindings : Bindings (List Char)}
    (h : namedUnits decoder p = .ok bindings q) :
    ∃ pairs, bindings = .ofPairs pairs ∧
      ((∃ name, (name, []) ∈ pairs) ↔ NothingBetween ':' [',', ')'] p.unread) := by
  obtain ⟨front, rest, hfront, ⟨pairs, hlist, rfl⟩, -⟩ := (spans_namedUnits decoder).eq_ok_iff.1 h
  exact ⟨pairs, rfl, hfront ▸ hlist.exists_nil_mem_iff rest⟩

/-- An argument that is empty or has a gap leaves a gap in its list. -/
theorem hasGap_of_mem_arguments {us : List (List Char)} (h : arguments p = .ok us q)
    {u : List Char} (hu : u ∈ us) (hgap : u = [] ∨ HasGap u) : HasGap p.unread := by
  rcases hgap with rfl | hgap
  · obtain ⟨behind, hunread, hnothing⟩ := (nil_mem_arguments_iff h).1 hu
    rw [hunread]
    exact HasGap.mono (.inl hnothing.gap) (List.suffix_cons _ _).isInfix
  · rcases list_of_opened h with rfl | ⟨r, hunits, hunread⟩
    · cases hu
    · obtain ⟨front, rest, hfront, hlist, -⟩ := spans_units.eq_ok_iff.1 hunits
      obtain ⟨part, _, hform, hpart⟩ := hlist.exists_of_mem hu
      rw [hunread, hfront]
      exact (hform.hasGap hgap).mono (hpart.trans
        ((List.prefix_append front rest).isInfix.trans (List.suffix_cons _ _).isInfix))

/-- A named argument that is empty or has a gap leaves a gap in its list. -/
theorem hasGap_of_mem_namedUnits {decoder : Decoder} {bindings : Bindings (List Char)}
    (h : namedUnits decoder p = .ok bindings q) {u : List Char} (hu : u ∈ bindings.values)
    (hgap : u = [] ∨ HasGap u) : HasGap p.unread := by
  obtain ⟨front, rest, hfront, ⟨pairs, hlist, rfl⟩, -⟩ := (spans_namedUnits decoder).eq_ok_iff.1 h
  obtain ⟨⟨name, _⟩, hbound, rfl⟩ := List.mem_map.1 hu
  have hmem := Bindings.mem_of_mem_ofPairs hbound
  rw [hfront]
  rcases hgap with rfl | hgap
  · exact .inr ((hlist.exists_nil_mem_iff rest).1 ⟨name, hmem⟩).gap
  · obtain ⟨part, _, hform, hpart⟩ := hlist.exists_of_mem hmem
    obtain ⟨unitPart, hunit, hsuffix⟩ := hform.exists_unitForm
    exact (hunit.hasGap hgap).mono
      (hsuffix.isInfix.trans (hpart.trans (List.prefix_append front rest).isInfix))

/-- The type of a field that is empty or has a gap leaves a gap in the arguments. -/
theorem hasGap_of_mem_userType {decoder : Decoder} {t : UserType}
    (h : userType decoder p = .ok t q) {u : List Char} (hu : u ∈ t.fields.values)
    (hgap : u = [] ∨ HasGap u) : HasGap p.unread := by
  obtain ⟨p₁, p₂, p₃, dump, hmark, hkeyspace, hdump, -, hfields⟩ := steps_of_userType h
  -- What is left is at each step the end of what was left before.
  have honward : Place.Onward fun r => r.unread <:+ p.unread := by
    intro r n hr _
    rw [Place.unread_advance]
    exact (List.drop_suffix n _).trans hr
  have hopened := ((keeps_mark honward '(' rfl).keepsAt List.suffix_rfl).of_ok hmark
  have hfirst := ((keeps_unit honward).keepsAt hopened).of_ok hkeyspace
  have hsecond := ((keeps_unit honward).keepsAt (honward.skipSeparator hfirst)).of_ok hdump
  exact (hasGap_of_mem_namedUnits hfields hu hgap).mono
    (honward.skipSeparator hsecond).isInfix

end Scan

end SchemaTypes.ClassName
