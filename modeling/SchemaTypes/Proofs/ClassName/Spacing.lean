import SchemaTypes.Proofs.ClassName.Pieces
import SchemaTypes.Proofs.ClassName.Recognition

/-!
# Blanks between the pieces are dropped

The scans drop the blanks between the pieces of a list, and keep those inside the parentheses of an
argument, which is left unread. No blank is left in front of the parentheses of an argument, so
that it is again a class name in pieces.

## Main definitions

* `ItemText`: the text of an item with blanks around it.
* `namedPieces`: the pieces of a named argument.

## Main results

* `exists_listForm`: items in pieces are a list by the grammar.
* `Scan.arguments_of_spread`, `Scan.namedArguments_of_spread`, `Scan.userType_of_spread`: lists of
  arguments are read through their blanks.
-/

namespace SchemaTypes.ClassName

theorem IsBlanks.count_comma {blanks : List Char} (h : IsBlanks blanks) :
    blanks.count ',' = 0 := by
  apply List.count_eq_zero.2
  intro hmem
  exact absurd (h _ hmem) (by decide)

/-- Blanks may stand on both sides of a separator. -/
theorem IsSeparator.surround {sep lead left : List Char} (h : IsSeparator sep)
    (hlead : IsBlanks lead) (hleft : IsBlanks left) : IsSeparator (lead ++ (sep ++ left)) := by
  refine ⟨?_, ?_⟩
  · simp only [List.forall_mem_append]
    exact ⟨fun c hc => .inl (hlead c hc), h.1, fun c hc => .inl (hleft c hc)⟩
  · rw [List.count_append, List.count_append, hlead.count_comma, hleft.count_comma]
    simpa using h.2

theorem Opens.append {text : List Char} (h : Opens text) (rest : List Char) :
    Opens (text ++ rest) := by
  obtain ⟨c, tail, rfl, hblank, hcomma, hclose⟩ := h
  exact ⟨c, tail ++ rest, rfl, hblank, hcomma, hclose⟩

theorem opens_of_isName {name : List Char} (hname : IsName name) (hne : name ≠ []) : Opens name :=
  opens_of_isUnit (isUnit_of_isName hname) hne

/-- Balanced pieces in parentheses are a group. -/
theorem isGroup_of_spread {inner : List (List Char)} (hinner : IsBalanced inner)
    {blanks text : List Char} (hblanks : IsBlanks blanks) (htext : Spread inner text) :
    IsGroup ('(' :: (blanks ++ (text ++ [')']))) :=
  ⟨blanks ++ text, hblanks.balanced.append (hinner text htext), by rw [List.append_assoc]⟩

/-- A class name in pieces has the form of a unit, with the blanks inside its parentheses. The
blanks that are left behind it belong to nothing. -/
theorem Phrase.exists_unitForm {phrase : Phrase} {text : List Char}
    (h : Spread phrase.pieces text) :
    ∃ front left u, text = front ++ left ∧ Opens front ∧ IsBlanks left ∧ phrase.IsPadding u ∧
      ∀ rest, Stops rest → UnitForm front (left ++ rest) u := by
  cases phrase with
  | word w isUnit ne_nil =>
    obtain ⟨blanks, s, rfl, hblanks, hs⟩ := h.exists_of_cons
    obtain rfl := hs.eq_nil
    have hopens := opens_of_isUnit isUnit ne_nil
    obtain ⟨name, group, rfl, hname, rfl | hgroup⟩ := isUnit
    -- Behind a name alone the blanks belong to the unit, behind a group they are left.
    · rw [List.append_nil] at hopens
      refine ⟨name ++ blanks, [], name ++ [], by simp, hopens.append _, isBlanks_nil, rfl, ?_⟩
      intro rest hrest
      rw [List.append_nil]
      exact .alone (longest_isName_of_isBlanks hname hblanks hrest.isIdentifierChar_eq_false)
        hblanks hrest
    · refine ⟨name ++ ([] ++ group), blanks, name ++ group, by simp, hopens, hblanks, rfl, ?_⟩
      intro rest hrest
      refine .withGroup (longest_isName_of_isBlanks hname isBlanks_nil ?_) isBlanks_nil hgroup
      obtain ⟨inner, -, rfl⟩ := hgroup
      simp [isIdentifierChar]
  | call name inner isName ne_nil isBalanced =>
    obtain ⟨blanks, s, rfl, hblanks, hs⟩ := h.exists_of_cons
    obtain ⟨blanks', s, rfl, hblanks', hs⟩ := hs.exists_of_cons
    obtain ⟨text, t, rfl, htext, ht⟩ := hs.exists_of_append
    obtain ⟨left, t, rfl, hleft, ht⟩ := ht.exists_of_cons
    obtain rfl := ht.eq_nil
    have hgroup := isGroup_of_spread isBalanced hblanks' htext
    refine ⟨name ++ (blanks ++ '(' :: (blanks' ++ (text ++ [')']))), left, _, by simp,
      (opens_of_isName isName ne_nil).append _, hleft, ⟨blanks', text, hblanks', htext, rfl⟩, ?_⟩
    intro rest _
    refine .withGroup (longest_isName_of_isBlanks isName hblanks ?_) hblanks hgroup
    simp [isIdentifierChar]

variable {α β : Type}

/-- The text of an item with blanks around it, wherever the list goes on behind them. -/
def ItemText (Item : List Char → List Char → α → Prop) (text : List Char) (a : α) : Prop :=
  ∃ lead front left, text = lead ++ (front ++ left) ∧ IsBlanks lead ∧ Opens front ∧
    IsBlanks left ∧ ∀ rest, Stops rest → Item front (left ++ rest) a

/-- Pieces with commas between them start with the pieces of the first item. If there are more, a
comma follows. -/
theorem Spread.exists_of_intercalate_cons {pieces : List (List Char)}
    {lists : List (List (List Char))} {text : List Char}
    (h : Spread ([[',']].intercalate (pieces :: lists)) text) :
    ∃ s sep t, text = s ++ (sep ++ t) ∧ Spread pieces s ∧ IsSeparator sep ∧
      (lists ≠ [] → ',' ∈ sep) ∧ Spread ([[',']].intercalate lists) t ∧
      ∀ rest, Stops (sep ++ (t ++ ')' :: rest)) := by
  cases lists with
  | nil =>
    rw [List.intercalate_singleton] at h
    exact ⟨text, [], [], by simp, h, isSeparator_nil, absurd rfl, by simpa using Spread.nil,
      fun rest => Stops.close⟩
  | cons next lists =>
    rw [List.intercalate_cons_cons, List.append_assoc] at h
    obtain ⟨s, t, rfl, hs, ht⟩ := h.exists_of_append
    obtain ⟨blanks, t, rfl, hblanks, ht⟩ := ht.exists_of_cons
    refine ⟨s, [','] ++ blanks, t, by simp, hs, ?_, fun _ => .head _, ht,
      fun rest => Stops.comma⟩
    exact isSeparator_comma.surround isBlanks_nil hblanks

/-- Items in pieces are a list by the grammar. The blanks around an item go to the separators, as
far as they do not belong to the item. -/
theorem exists_listForm {Item : List Char → List Char → α → Prop} {R : β → List Char → Prop}
    {value : β → List Char → α} {pieces : β → List (List Char)} {bs : List β}
    (hitem : ∀ b ∈ bs, ∀ text, Spread (pieces b) text →
      ∃ u, R b u ∧ ItemText Item text (value b u))
    {text : List Char} (htext : Spread ([[',']].intercalate (bs.map pieces)) text) :
    ∃ read : List (β × List Char), read.map Prod.fst = bs ∧ (∀ part ∈ read, R part.1 part.2) ∧
      ∀ sep, IsSeparator sep →
        ListForm Item (sep ++ (text ++ [')'])) (read.map fun part => value part.1 part.2) := by
  induction bs generalizing text with
  | nil =>
    obtain rfl : text = [] := (show Spread [] text by simpa using htext).eq_nil
    refine ⟨[], rfl, by simp, fun sep hsep => .close (longest_isSeparator_iff.2 ⟨hsep, ?_⟩)⟩
    intro c hc
    cases hc
    exact ⟨by decide, fun h => absurd h (by decide)⟩
  | cons b bs ih =>
    obtain ⟨s, next, t, rfl, hs, hnext, -, ht, hstops⟩ := htext.exists_of_intercalate_cons
    obtain ⟨u, hR, lead, front, left, rfl, hlead, hopens, hleft, hform⟩ := hitem b (.head _) s hs
    obtain ⟨read, hread, hrelated, hlist⟩ := ih (fun b' hb' => hitem b' (.tail _ hb')) ht
    refine ⟨(b, u) :: read, by rw [List.map_cons, hread],
      List.forall_mem_cons.2 ⟨hR, hrelated⟩, fun sep hsep => ?_⟩
    -- What follows the item is the separator of the next one, with the blanks that are left.
    have hrest := hlist (left ++ (next ++ [])) (hnext.surround hleft isBlanks_nil)
    have hfront := hform _ (hstops [])
    have hsep := hsep.surround isBlanks_nil hlead
    obtain ⟨c, tail, rfl, hblank, hcomma, hclose⟩ := hopens
    have hlongest : Longest IsSeparator ([] ++ (sep ++ lead))
        (c :: tail ++ (left ++ (next ++ []) ++ (t ++ [')']))) := by
      refine longest_isSeparator_iff.2 ⟨hsep, fun d hd => ?_⟩
      cases hd
      exact ⟨hblank, fun h => absurd h hcomma⟩
    have hwhole := ListForm.item hlongest (by simpa using hclose) (by simpa using hfront) hrest
    simpa using hwhole

theorem IsBlanks.isSeparator {blanks : List Char} (h : IsBlanks blanks) : IsSeparator blanks := by
  simpa using isSeparator_nil.surround h isBlanks_nil

theorem exists_itemText_unit {phrase : Phrase} {text : List Char}
    (h : Spread phrase.pieces text) : ∃ u, phrase.IsPadding u ∧ ItemText UnitForm text u := by
  obtain ⟨front, left, u, rfl, hopens, hleft, hu, hform⟩ := phrase.exists_unitForm h
  exact ⟨u, hu, [], front, left, rfl, isBlanks_nil, hopens, hleft, hform⟩

/-- The pieces of a named argument: the dump of the name, a colon and the pieces of a class
name. -/
def namedPieces (name : String) (phrase : Phrase) : List (List Char) :=
  (Text.HexDump.encode name).toList :: [':'] :: phrase.pieces

theorem isBalanced_namedPieces (name : String) (phrase : Phrase) :
    IsBalanced (namedPieces name phrase) :=
  .cons (isName_encode name).balanced
    (.cons (.of_forall_ne (by simp)) phrase.isBalanced_pieces)

/-- The pieces of each of several named arguments. -/
abbrev fieldPieces (phraseOf : β → Phrase) (fields : List (String × β)) : List (List (List Char)) :=
  fields.map fun field => namedPieces field.1 (phraseOf field.2)

/-- A named argument has blanks around its colon and behind it. They come first if the text in front
of the colon is empty. -/
theorem itemText_named {decoder : Decoder} {dump blanks lead front left u : List Char}
    {name : String} (hdump : IsName dump) (hname : decoder (String.ofList dump) = .ok name)
    (hblanks : IsBlanks blanks) (hlead : IsBlanks lead) (hleft : IsBlanks left)
    (hform : ∀ rest, Stops rest → UnitForm front (left ++ rest) u ∧
      ∀ c ∈ (front ++ (left ++ rest)).head?, isBlank c = false) :
    ItemText (NamedForm decoder) (dump ++ (blanks ++ ':' :: (lead ++ (front ++ left))))
      (name, u) := by
  cases dump with
  | nil =>
    refine ⟨blanks, [] ++ ([] ++ ':' :: (lead ++ front)), left, by simp, hblanks,
      ⟨':', _, rfl, by decide, by decide, by decide⟩, hleft, fun rest hrest => ?_⟩
    obtain ⟨hunit, hhead⟩ := hform rest hrest
    exact .mk hdump hname isBlanks_nil hlead hhead hunit
  | cons c dump =>
    refine ⟨[], (c :: dump) ++ (blanks ++ ':' :: (lead ++ front)), left, by simp, isBlanks_nil,
      (opens_of_isName hdump (List.cons_ne_nil _ _)).append _, hleft, fun rest hrest => ?_⟩
    obtain ⟨hunit, hhead⟩ := hform rest hrest
    exact .mk hdump hname hblanks hlead hhead hunit

/-- No blank stands at the front of an item. -/
theorem Opens.isBlank_eq_false {text : List Char} (h : Opens text) (rest : List Char) :
    ∀ c ∈ (text ++ rest).head?, isBlank c = false := by
  obtain ⟨c, tail, rfl, hblank, -⟩ := h
  intro d hd
  cases hd
  exact hblank

theorem exists_itemText_named {name : String} {phrase : Phrase} {text : List Char}
    (h : Spread (namedPieces name phrase) text) :
    ∃ u, phrase.IsPadding u ∧ ItemText (NamedForm .hexDump) text (name, u) := by
  obtain ⟨blanks, s, rfl, hblanks, hs⟩ := h.exists_of_cons
  obtain ⟨blanks', s, rfl, hblanks', hs⟩ := hs.exists_of_cons
  obtain ⟨front, left, u, rfl, hopens, hleft, hu, hform⟩ := phrase.exists_unitForm hs
  refine ⟨u, hu, ?_⟩
  rw [List.singleton_append]
  exact itemText_named (isName_encode name) (hexDump_encode name) hblanks hblanks' hleft
    fun rest hrest => ⟨hform rest hrest, hopens.isBlank_eq_false _⟩

namespace Scan

variable {phraseOf : β → Phrase}

/-- Arguments in pieces are read, each with the blanks inside its own parentheses. -/
theorem arguments_of_spread {bs : List β} {blanks text : List Char} (hblanks : IsBlanks blanks)
    (htext : Spread ([[',']].intercalate (bs.map fun b => (phraseOf b).pieces)) text) {p : Place}
    (hunread : p.unread = '(' :: (blanks ++ (text ++ [')']))) :
    ∃ read : List (β × List Char), read.map Prod.fst = bs ∧
      (∀ part ∈ read, (phraseOf part.1).IsPadding part.2) ∧
      ∃ q, arguments p = .ok (read.map Prod.snd) q := by
  have hitem : ∀ b ∈ bs, ∀ text, Spread (phraseOf b).pieces text →
      ∃ u, (phraseOf b).IsPadding u ∧ ItemText UnitForm text u :=
    fun b _ text htext => exists_itemText_unit htext
  obtain ⟨read, hread, hpadding, hlist⟩ := exists_listForm hitem htext
  have hopened := (opened_eq_ok_iff spans_units (by rw [hunread, List.head?_cons])).2
    ⟨_, [], by rw [hunread, List.append_nil], ⟨_, rfl, hlist blanks hblanks.isSeparator⟩, rfl⟩
  exact ⟨read, hread, hpadding, _, hopened⟩

/-- Arguments in pieces are read where as many are expected. -/
theorem expectArguments_of_spread {bs : List β} {blanks text : List Char}
    (hblanks : IsBlanks blanks)
    (htext : Spread ([[',']].intercalate (bs.map fun b => (phraseOf b).pieces)) text) {count : Nat}
    (hcount : bs.length = count) (reason : Nat → Reason) {p : Place}
    (hunread : p.unread = '(' :: (blanks ++ (text ++ [')']))) :
    ∃ read : List (β × List Char), read.map Prod.fst = bs ∧
      (∀ part ∈ read, (phraseOf part.1).IsPadding part.2) ∧
      ∃ q, expectArguments count reason p = .ok (read.map Prod.snd) q := by
  obtain ⟨read, rfl, hpadding, q, hq⟩ := arguments_of_spread hblanks htext hunread
  refine ⟨read, rfl, hpadding, q, ?_⟩
  rw [expectArguments, bind_of_eq_ok hq, if_pos (by simpa using hcount)]
  rfl

/-- Named arguments in pieces are read as items. -/
theorem items_of_spread {fields : List (String × β)} {sep text : List Char}
    (hsep : IsSeparator sep)
    (htext : Spread ([[',']].intercalate (fieldPieces phraseOf fields)) text) {p : Place}
    (hunread : p.unread = sep ++ (text ++ [')'])) :
    ∃ read : List ((String × β) × List Char), read.map Prod.fst = fields ∧
      (∀ part ∈ read, (phraseOf part.1.2).IsPadding part.2) ∧
      ∃ q, items (namedUnit .hexDump) (headway_namedUnit .hexDump) p =
        .ok (read.map fun part => (part.1.1, part.2)) q := by
  have hitem : ∀ field ∈ fields, ∀ text, Spread (namedPieces field.1 (phraseOf field.2)) text →
      ∃ u, (phraseOf field.2).IsPadding u ∧
        ItemText (NamedForm .hexDump) text (field.1, u) :=
    fun field _ text htext => exists_itemText_named htext
  obtain ⟨read, hread, hpadding, hlist⟩ := exists_listForm hitem htext
  refine ⟨read, hread, hpadding, _, items_of_listForm (readsExactly_namedUnit .hexDump)
    (hlist sep hsep) (hunread.trans (List.append_nil _).symm)⟩

/-- Named arguments with distinct names are bound as they stand. -/
theorem namedUnits_of_items {fields : List (String × β)} (hnames : (fields.map Prod.fst).Nodup)
    {read : List ((String × β) × List Char)} (hread : read.map Prod.fst = fields) {p q : Place}
    (hitems : items (namedUnit .hexDump) (headway_namedUnit .hexDump) p =
      .ok (read.map fun part => (part.1.1, part.2)) q) :
    namedUnits .hexDump p = .ok (read.map fun part => (part.1.1, part.2)) q := by
  have hnodup : (Bindings.names (read.map fun part => (part.1.1, part.2))).Nodup := by
    rw [← hread, List.map_map] at hnames
    rwa [Bindings.names, List.map_map]
  rw [namedUnits, bind_of_eq_ok hitems, Bindings.ofPairs_of_nodup hnodup]
  rfl

/-- Named arguments in pieces are read in their parentheses. -/
theorem namedArguments_of_spread {fields : List (String × β)}
    (hnames : (fields.map Prod.fst).Nodup) {blanks text : List Char} (hblanks : IsBlanks blanks)
    (htext : Spread ([[',']].intercalate (fieldPieces phraseOf fields)) text) {p : Place}
    (hunread : p.unread = '(' :: (blanks ++ (text ++ [')']))) :
    ∃ read : List ((String × β) × List Char), read.map Prod.fst = fields ∧
      (∀ part ∈ read, (phraseOf part.1.2).IsPadding part.2) ∧
      ∃ q, namedArguments .hexDump p = .ok (read.map fun part => (part.1.1, part.2)) q := by
  obtain ⟨hopened, hbehind⟩ := opened_of_unread (namedUnits .hexDump) hunread
  obtain ⟨read, hread, hpadding, q, hitems⟩ :=
    items_of_spread hblanks.isSeparator htext hbehind
  refine ⟨read, hread, hpadding, q, ?_⟩
  rw [namedArguments, hopened]
  exact namedUnits_of_items hnames hread hitems

/-- A name alone is read through the blanks around it, which may be all that is there. -/
theorem unit_of_isName {p : Place} {name blanks rest : List Char} (hname : IsName name)
    (hblanks : IsBlanks blanks) (hrest : Stops rest)
    (hunread : p.unread.dropWhile isBlank = (name ++ (blanks ++ rest)).dropWhile isBlank) :
    ∃ q, unit p = .ok name q ∧ q.unread = rest := by
  rw [← Place.unread_skipBlanks] at hunread
  -- Without a name all blanks stand in front of it.
  have hbehind : ∃ blanks', IsBlanks blanks' ∧
      p.skipBlanks.unread = name ++ (blanks' ++ rest) := by
    by_cases hnil : name = []
    · subst hnil
      refine ⟨[], isBlanks_nil, ?_⟩
      rw [hunread, List.nil_append, Text.dropWhile_append_of_head hblanks hrest.isBlank_eq_false]
      rfl
    · obtain ⟨c, tail, rfl, hblank, -⟩ := opens_of_isName hname hnil
      exact ⟨blanks, hblanks, by rw [hunread, List.cons_append,
        List.dropWhile_cons_of_neg (by simp [hblank])]⟩
  obtain ⟨blanks', hblanks', hbehind⟩ := hbehind
  rw [← List.append_assoc] at hbehind
  have hlongest := longest_isName_of_isBlanks hname hblanks' hrest.isIdentifierChar_eq_false
  refine ⟨_, ?_, Place.unread_advance_of_append hbehind⟩
  rw [← unit_skipBlanks]
  exact (unit_eq_ok_iff p.head_skipBlanks).2
    ⟨_, rest, hbehind, .alone hlongest hblanks' hrest, rfl⟩

/-- The separator behind a comma ends where the blanks behind it end. -/
theorem unread_skipSeparator_of_comma {p : Place} {sep text : List Char} (hsep : IsSeparator sep)
    (hcomma : ',' ∈ sep) (hunread : p.unread = sep ++ text) :
    p.skipSeparator.unread = text.dropWhile isBlank := by
  have hlead : IsBlanks (text.takeWhile isBlank) := List.all_eq_true.1 List.all_takeWhile
  have hwhole : p.unread = ([] ++ (sep ++ text.takeWhile isBlank)) ++ text.dropWhile isBlank := by
    rw [hunread, List.nil_append, List.append_assoc, List.takeWhile_append_dropWhile]
  rw [skipSeparator_of_append (hsep.surround isBlanks_nil hlead) hwhole,
    Place.unread_advance_of_append hwhole]
  exact fun c hc => ⟨Text.head_dropWhile isBlank text c hc, fun _ => by simp [hcomma]⟩

/-- Where a list of items goes on with no comma, a separator may be passed before it is read. -/
theorem items_skipSeparator {item : Scan α} {headway : Headway item} {p : Place}
    (h : p.skipSeparator.unread.head? ≠ some ',') :
    items item headway p.skipSeparator = items item headway p := by
  rw [items_apply, items_apply item headway p, Place.skipSeparator_skipSeparator_eq_self_iff.2 h]

/-- No named argument starts with a comma. -/
theorem head_ne_comma_of_items {decoder : Decoder} {p q : Place}
    {pairs : List (String × List Char)}
    (h : items (namedUnit decoder) (headway_namedUnit decoder) p = .ok pairs q) :
    p.skipSeparator.unread.head? ≠ some ',' := by
  intro hhead
  obtain ⟨behind, hbehind⟩ := List.head?_eq_some_iff.1 hhead
  rw [items_apply, hbehind] at h
  simp only [if_neg (show ',' ≠ ')' by decide)] at h
  split at h
  · simp at h
  · next pair r hpair =>
    obtain ⟨text, rest, hunread, hform, -⟩ :=
      ((readsExactly_namedUnit decoder).eq_ok_iff (by rw [hbehind]; simp [isBlank])).1 hpair
    exact hform.head_ne_comma rest (hunread ▸ hhead)

/-- The arguments of a user-defined type in pieces are read, also if the keyspace or the name is
empty and only commas and blanks are left of it. -/
theorem userType_of_spread {keyspace : List Char} {name : String} {fields : List (String × β)}
    (hkeyspace : IsName keyspace) (hnames : (fields.map Prod.fst).Nodup) {blanks text : List Char}
    (hblanks : IsBlanks blanks)
    (htext : Spread ([[',']].intercalate ([keyspace] ::
      [(Text.HexDump.encode name).toList] :: fieldPieces phraseOf fields)) text) {p : Place}
    (hunread : p.unread = '(' :: (blanks ++ (text ++ [')']))) :
    ∃ read : List ((String × β) × List Char), read.map Prod.fst = fields ∧
      (∀ part ∈ read, (phraseOf part.1.2).IsPadding part.2) ∧
      ∃ q, userType .hexDump p =
        .ok ⟨keyspace, name, read.map fun part => (part.1.1, part.2)⟩ q := by
  have hdump : IsName (Text.HexDump.encode name).toList := isName_encode name
  have hdecode (p : Place) : decodeName .hexDump (Text.HexDump.encode name).toList p =
      .ok name p := decodeName_of_eq_ok (hexDump_encode name) p
  -- The text from piece to piece: the keyspace, the dump of the name, and the fields.
  obtain ⟨s, sep, t, rfl, hs, hsep, hcomma, ht, hstops⟩ := htext.exists_of_intercalate_cons
  obtain ⟨before, nothing, rfl, hbefore, hnothing⟩ := hs.exists_of_cons
  obtain rfl := hnothing.eq_nil
  obtain ⟨s, sep', t, rfl, hs', hsep', -, hfields, hstops'⟩ := ht.exists_of_intercalate_cons
  obtain ⟨behind, nothing, rfl, hbehind, hnothing⟩ := hs'.exists_of_cons
  obtain rfl := hnothing.eq_nil
  generalize (Text.HexDump.encode name).toList = dump at hdump hdecode hunread hstops hstops'
  have hopened : (p.advance 1).unread.dropWhile isBlank =
      (keyspace ++ (before ++ (sep ++ (dump ++ (behind ++ (sep' ++ (t ++ [')']))))))).dropWhile
        isBlank := by
    rw [Place.unread_advance, hunread, List.drop_succ_cons, List.drop_zero,
      List.dropWhile_append_of_pos hblanks]
    simp only [List.append_nil, List.append_assoc]
  obtain ⟨q₁, hread₁, hq₁⟩ := unit_of_isName hkeyspace hbefore (by simpa using hstops []) hopened
  -- Blanks in front of the dump have been passed with the comma; those around it are left.
  have hskip := unread_skipSeparator_of_comma hsep (hcomma (List.cons_ne_nil _ _)) hq₁
  obtain ⟨q₂, hread₂, hq₂⟩ := unit_of_isName hdump hbehind (by simpa using hstops' [])
    (by rw [hskip, Text.dropWhile_eq_self_of_head (Text.head_dropWhile isBlank _)])
  obtain ⟨read, hread, hpadding, q, hitems⟩ := items_of_spread hsep' hfields hq₂
  have hskipped := (items_skipSeparator (head_ne_comma_of_items hitems)).trans hitems
  refine ⟨read, hread, hpadding, q, ?_⟩
  rw [userType, bind_of_eq_ok (mark_of_unread _ hunread (by decide)), bind_of_eq_ok hread₁,
    bind_of_eq_ok (skipSeparator_apply _), bind_of_eq_ok hread₂, bind_of_eq_ok (hdecode _),
    bind_of_eq_ok (skipSeparator_apply _),
    bind_of_eq_ok (namedUnits_of_items hnames hread hskipped)]
  rfl

end Scan

end SchemaTypes.ClassName
