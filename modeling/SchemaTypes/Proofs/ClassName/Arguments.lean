import SchemaTypes.ClassName.UserType
import SchemaTypes.Proofs.ClassName.Units
import SchemaTypes.Proofs.Text.HexDump

/-!
# Written lists of arguments are read back

The arguments of a class are written in parentheses with a comma between neighbours. Any scan that
reads the texts between the commas reads the list, so that plain arguments and named ones need
one argument only.

## Main definitions

* `listText`, `namedText`: how lists and named units are written.
* `IsSeparator`, `Opens`: what may stand before an item, and how its text has to start.

## Main results

* `Scan.items_of_isItem`: items are read one by one up to the closing parenthesis.
* `Scan.arguments_of_isUnit`, `Scan.namedArguments_of_isUnit`, `Scan.userType_of_isUnit`: written
  arguments are read back.
-/

namespace SchemaTypes.ClassName

/-- Texts in parentheses, with a comma between neighbours. -/
def listText (texts : List (List Char)) : List Char :=
  '(' :: ([','].intercalate texts ++ [')'])

/-- Blanks with at most one comma among them. -/
def IsSeparator (sep : List Char) : Prop :=
  (∀ c ∈ sep, isBlank c = true ∨ c = ',') ∧ sep.count ',' ≤ 1

/-- The text starts with a character that no list passes over. -/
def Opens (text : List Char) : Prop :=
  ∃ c rest, text = c :: rest ∧ isBlank c = false ∧ c ≠ ',' ∧ c ≠ ')'

/-- The text of a named argument: the dump of the name, a colon and a unit. -/
def namedText (pair : String × List Char) : List Char :=
  (Text.HexDump.encode pair.1).toList ++ ':' :: pair.2

theorem isSeparator_nil : IsSeparator [] := ⟨by simp, by simp⟩

theorem isSeparator_comma : IsSeparator [','] := ⟨by simp, by simp⟩

/-- A separator is passed as a whole if what follows is no blank, and no comma that could still
belong to it. -/
theorem separator_append {comma : Bool} {sep rest : List Char}
    (hsep : ∀ c ∈ sep, isBlank c = true ∨ c = ',')
    (hcount : sep.count ',' ≤ if comma then 0 else 1)
    (hrest : ∀ c ∈ rest.head?, isBlank c = false ∧ (c = ',' → comma = true ∨ ',' ∈ sep)) :
    separator comma (sep ++ rest) = sep := by
  induction sep generalizing comma with
  | nil =>
    -- Nothing is passed: what follows is no blank, and a comma only if one has been met.
    cases rest with
    | nil => rfl
    | cons c rest =>
      obtain ⟨hblank, hcomma⟩ := hrest c rfl
      have hstop : ¬ (c = ',' ∧ comma = false) := by
        rintro ⟨hc, hfalse⟩
        simp [hfalse] at hcomma
        exact hcomma hc
      rw [List.nil_append, separator, if_neg (by simp [hblank]), if_neg hstop]
  | cons c sep ih =>
    have hsep' : ∀ d ∈ sep, isBlank d = true ∨ d = ',' := fun d hd => hsep d (.tail _ hd)
    rw [List.cons_append, separator]
    by_cases hblank : isBlank c = true
    · have hne : ',' ≠ c := by
        rintro rfl
        exact absurd hblank (by decide)
      rw [List.count_cons_of_ne hne.symm] at hcount
      rw [if_pos hblank, ih hsep' hcount]
      simpa only [List.mem_cons, hne, false_or] using hrest
    · -- the one comma that is allowed: none may follow it
      obtain rfl : c = ',' := (hsep c (.head _)).resolve_left hblank
      rw [List.count_cons_self] at hcount
      cases comma with
      | true => simp at hcount
      | false =>
        rw [if_neg hblank, if_pos ⟨rfl, rfl⟩, ih hsep' (by simpa using hcount)]
        intro d hd
        exact ⟨(hrest d hd).1, fun _ => .inl rfl⟩

/-- Behind the first of several texts stands a separator, behind the last one the closing
parenthesis: either may follow a unit. -/
theorem exists_intercalate_cons (text : List Char) (texts : List (List Char)) :
    ∃ sep, IsSeparator sep ∧
      [','].intercalate (text :: texts) = text ++ (sep ++ [','].intercalate texts) ∧
      ∀ rest, Stops (sep ++ ([','].intercalate texts ++ ')' :: rest)) := by
  cases texts with
  -- The last text has nothing behind it, and the parenthesis of the list follows.
  | nil => exact ⟨[], isSeparator_nil, by simp, fun rest => Stops.close⟩
  | cons next texts =>
    exact ⟨[','], isSeparator_comma, by simp [List.intercalate_cons_cons],
      fun rest => Stops.comma⟩

theorem isUnit_of_isName {name : List Char} (h : IsName name) : IsUnit name :=
  ⟨name, [], (List.append_nil name).symm, h, .inl rfl⟩

theorem opens_cons {c : Char} (h : isIdentifierChar c = true) (rest : List Char) :
    Opens (c :: rest) :=
  ⟨c, rest, rfl, isBlank_eq_false_of_isIdentifierChar h, ne_of_isIdentifierChar h (by decide),
    ne_of_isIdentifierChar h (by decide)⟩

theorem opens_of_isUnit {u : List Char} (hu : IsUnit u) (hne : u ≠ []) : Opens u := by
  obtain ⟨name, group, rfl, hname, hgroup⟩ := hu
  cases name with
  | nil =>
    -- A unit without a name starts with its group.
    obtain ⟨inner, -, rfl⟩ := hgroup.resolve_left hne
    exact ⟨'(', _, rfl, by decide, by decide, by decide⟩
  | cons c name => exact opens_cons (hname c (.head _)) _

/-- A dump is a run of identifier characters. -/
theorem isName_encode (text : String) : IsName (Text.HexDump.encode text).toList := by
  have hdigit : ∀ n, n < 16 → isIdentifierChar (Text.Hex.digit n) = true := by decide
  intro c hc
  obtain ⟨n, hn, rfl⟩ := Text.HexDump.digit_of_mem_encode hc
  exact hdigit n hn

/-- A dump is decoded to the text that was dumped. -/
theorem hexDump_encode (text : String) :
    Decoder.hexDump (String.ofList (Text.HexDump.encode text).toList) = .ok text := by
  rw [String.ofList_toList, Decoder.hexDump, Text.HexDump.decode_encode]
  rfl

theorem opens_namedText (pair : String × List Char) : Opens (namedText pair) := by
  have hdump := isName_encode pair.1
  rw [namedText]
  generalize (Text.HexDump.encode pair.1).toList = dump at hdump
  cases dump with
  -- The dump of the empty name is empty: the text starts with the colon.
  | nil => exact ⟨':', _, rfl, by decide, by decide, by decide⟩
  | cons c dump => exact opens_cons (hdump c (.head _)) _

theorem head_listText (texts : List (List Char)) :
    ∀ c ∈ (listText texts).head?, isIdentifierChar c = false := by
  intro c hc
  cases hc
  decide

theorem IsName.balanced {name : List Char} (h : IsName name) : Balanced name :=
  .of_forall_ne fun c hc =>
    ⟨ne_of_isIdentifierChar (h c hc) (by decide), ne_of_isIdentifierChar (h c hc) (by decide)⟩

theorem IsGroup.balanced {group : List Char} (h : IsGroup group) : Balanced group := by
  obtain ⟨inner, hinner, rfl⟩ := h
  exact hinner.group

theorem IsUnit.balanced {u : List Char} (h : IsUnit u) : Balanced u := by
  obtain ⟨name, group, rfl, hname, hgroup⟩ := h
  refine hname.balanced.append ?_
  rcases hgroup with rfl | hgroup
  · exact .nil
  · exact hgroup.balanced

theorem balanced_namedText {pair : String × List Char} (h : IsUnit pair.2) :
    Balanced (namedText pair) := by
  have hcolon : Balanced [':'] := .of_forall_ne (by simp)
  exact (isName_encode pair.1).balanced.append (hcolon.append h.balanced)

/-- The list of balanced texts is a group. -/
theorem isGroup_listText {texts : List (List Char)} (h : ∀ text ∈ texts, Balanced text) :
    IsGroup (listText texts) := by
  refine ⟨_, ?_, rfl⟩
  -- By induction on the texts, each of which is balanced with the separator behind it.
  induction texts with
  | nil => exact .nil
  | cons text texts ih =>
    have htail := ih fun t ht => h t (.tail _ ht)
    obtain ⟨sep, hsep, htext, -⟩ := exists_intercalate_cons text texts
    rw [htext]
    refine (h text (.head _)).append (.append (.of_forall_ne fun c hc => ?_) htail)
    -- No separator holds a parenthesis.
    rcases hsep.1 c hc with hblank | rfl
    · constructor <;> rintro rfl <;> exact absurd hblank (by decide)
    · decide

theorem isGroup_listText_singleton {u : List Char} (h : IsUnit u) : IsGroup (listText [u]) :=
  isGroup_listText (List.forall_mem_singleton.2 h.balanced)

/-- Neither a blank nor a comma stands where the items of a list start. -/
theorem head_items {α : Type} {text : α → List Char} {as : List α} (has : ∀ a ∈ as, Opens (text a))
    {rest : List Char} :
    ∀ c ∈ ([','].intercalate (as.map text) ++ ')' :: rest).head?, isBlank c = false ∧ c ≠ ',' := by
  cases as with
  | nil =>
    intro c hc
    cases hc
    decide
  | cons a as =>
    obtain ⟨d, behind, htext, hblank, hcomma, -⟩ := has a (.head _)
    obtain ⟨sep, -, hitems, -⟩ := exists_intercalate_cons (text a) (as.map text)
    intro c hc
    rw [List.map_cons, hitems, htext] at hc
    cases hc
    exact ⟨hblank, hcomma⟩

namespace Scan

variable {α : Type}

/-- The text may be an item of a list, which is then read as the value. -/
def IsItem (item : Scan α) (text : List Char) (a : α) : Prop :=
  Opens text ∧ Reads item text a

theorem isItem_namedText {pair : String × List Char} (h : IsUnit pair.2) :
    IsItem (namedUnit .hexDump) (namedText pair) pair := by
  have hname := hexDump_encode pair.1
  exact ⟨opens_namedText pair, reads_namedUnit (isName_encode pair.1) hname h⟩

theorem skipSeparator_apply (p : Place) :
    skipSeparator p = .ok (!p.skipSeparator.atEnd) p.skipSeparator := rfl

theorem skipSeparator_of_append {p : Place} {sep rest : List Char} (hsep : IsSeparator sep)
    (hunread : p.unread = sep ++ rest)
    (hrest : ∀ c ∈ rest.head?, isBlank c = false ∧ (c = ',' → ',' ∈ sep)) :
    p.skipSeparator = p.advance sep.length := by
  have hstop : ∀ c ∈ rest.head?, isBlank c = false ∧ (c = ',' → false = true ∨ ',' ∈ sep) :=
    fun c hc => ⟨(hrest c hc).1, fun h => .inr ((hrest c hc).2 h)⟩
  rw [Place.skipSeparator, hunread, separator_append hsep.1 (by simpa using hsep.2) hstop]

/-- What the items of a list are, by the text behind the separator. -/
theorem items_apply (item : Scan α) (headway : Headway item) (p : Place) :
    items item headway p =
      match p.skipSeparator.unread with
      | [] => fail .textEnded p.skipSeparator
      | c :: _ =>
        if c = ')' then .ok [] (p.skipSeparator.advance 1)
        else
          match item p.skipSeparator with
          | .error fault q => .error fault q
          | .ok a q =>
            match items item headway q with
            | .error fault r => .error fault r
            | .ok as r => .ok (a :: as) r := by
  rw [items]
  cases hunread : p.skipSeparator.unread with
  | nil => rw [if_pos (by simp [Place.atEnd, hunread])]
  | cons c rest =>
    -- A character is left, so that looking at it cannot fail.
    rw [if_neg (by simp [Place.atEnd, hunread])]
    have hpeek : peek p.skipSeparator = .ok c p.skipSeparator := by
      simp [peek, Place.peek?, hunread]
    split
    · next hpeek' => simp [hpeek] at hpeek'
    · next hpeek' =>
      rw [hpeek] at hpeek'
      cases hpeek'
      by_cases hclose : c = ')'
      · simp only [dif_pos hclose, if_pos hclose]
      · simp only [dif_neg hclose, if_neg hclose]
        split
        · next hitem => rw [hitem]
        · next hitem => exact hitem ▸ rfl

theorem items_nil {item : Scan α} {headway : Headway item} {p : Place} {sep rest : List Char}
    (hsep : IsSeparator sep) (hunread : p.unread = sep ++ ')' :: rest) :
    items item headway p = .ok [] (p.advance (sep.length + 1)) := by
  have hskip : p.skipSeparator = p.advance sep.length := by
    refine skipSeparator_of_append hsep hunread fun c hc => ?_
    cases hc
    exact ⟨by decide, fun h => absurd h (by decide)⟩
  rw [items_apply, hskip, Place.unread_advance_of_append hunread]
  simp only [if_pos, Place.advance_advance]

/-- One more item behind the longest separator, and the items behind it. -/
theorem items_cons {item : Scan α} {headway : Headway item} {p q r : Place}
    {sep rest : List Char} {c : Char} {a : α} {as : List α} (hsep : IsSeparator sep)
    (hunread : p.unread = sep ++ c :: rest) (hblank : isBlank c = false)
    (hcomma : c = ',' → ',' ∈ sep) (hclose : c ≠ ')')
    (hitem : item (p.advance sep.length) = .ok a q) (hitems : items item headway q = .ok as r) :
    items item headway p = .ok (a :: as) r := by
  have hskip : p.skipSeparator = p.advance sep.length := by
    refine skipSeparator_of_append hsep hunread fun d hd => ?_
    cases hd
    exact ⟨hblank, hcomma⟩
  rw [items_apply, hskip, Place.unread_advance_of_append hunread]
  simp only [if_neg hclose, hitem, hitems]

/-- Items are read one by one up to the closing parenthesis, if a separator precedes the first and
commas stand between them. -/
theorem items_of_isItem {item : Scan α} (headway : Headway item) {text : α → List Char}
    {as : List α} (has : ∀ a ∈ as, IsItem item (text a) a) {sep rest : List Char} {p : Place}
    (hsep : IsSeparator sep)
    (hunread : p.unread = sep ++ ([','].intercalate (as.map text) ++ ')' :: rest)) :
    items item headway p =
      .ok as (p.advance (sep.length + ([','].intercalate (as.map text)).length + 1)) := by
  induction as generalizing sep p with
  | nil => simpa using items_nil hsep hunread
  | cons a as ih =>
    obtain ⟨hopens, hreads⟩ := has a (.head _)
    -- Behind the item stands the separator of the next one, or the parenthesis.
    obtain ⟨next, hnext, htext, hstops⟩ := exists_intercalate_cons (text a) (as.map text)
    rw [List.map_cons, htext, List.append_assoc, List.append_assoc] at hunread
    -- The item is read where the separator ends, and the induction goes on behind its text.
    have hitem := hreads (p.advance sep.length) _ (Place.unread_advance_of_append hunread)
      (hstops rest)
    have hbehind : ((p.advance sep.length).advance (text a).length).unread =
        next ++ ([','].intercalate (as.map text) ++ ')' :: rest) :=
      Place.unread_advance_of_append (Place.unread_advance_of_append hunread)
    have hitems := ih (fun b hb => has b (.tail _ hb)) hnext hbehind
    obtain ⟨c, text, hstart, hblank, hcomma, hclose⟩ := hopens
    rw [hstart] at hunread
    rw [items_cons hsep hunread hblank (fun h => absurd h hcomma) hclose hitem hitems]
    simp only [List.map_cons, htext, List.length_append, Place.advance_advance, Nat.add_assoc]

/-- Behind its parenthesis a list is read as it stands. -/
theorem opened_of_unread {β : Type} (list : Scan (List β)) {p : Place} {behind : List Char}
    (hunread : p.unread = '(' :: behind) :
    opened list p = list (p.advance 1) ∧ (p.advance 1).unread = behind := by
  constructor
  · rw [opened_apply, hunread]
    simp only [↓reduceIte]
  · rw [Place.unread_advance, hunread]
    rfl

/-- Behind its parenthesis stand the texts of a list, and the parenthesis that ends it. -/
theorem opened_of_listText {β : Type} (list : Scan (List β)) {p : Place}
    {texts : List (List Char)} {rest : List Char} (hunread : p.unread = listText texts ++ rest) :
    opened list p = list (p.advance 1) ∧
      (p.advance 1).unread = [','].intercalate texts ++ ')' :: rest := by
  rw [listText, List.cons_append, List.append_assoc, List.singleton_append] at hunread
  exact opened_of_unread list hunread

/-- Written arguments are read back. -/
theorem arguments_of_isUnit {us : List (List Char)} (hus : ∀ u ∈ us, IsUnit u ∧ u ≠ [])
    {p : Place} {rest : List Char} (hunread : p.unread = listText us ++ rest) :
    arguments p = .ok us (p.advance (listText us).length) := by
  have hitems : ∀ u ∈ us, IsItem argument (id u) u := fun u hu =>
    ⟨opens_of_isUnit (hus u hu).1 (hus u hu).2, reads_argument (hus u hu).1⟩
  obtain ⟨hopened, hbehind⟩ := opened_of_listText units hunread
  -- Plain arguments are items whose text is the argument itself.
  rw [← List.map_id us] at hbehind
  have hread := items_of_isItem headway_argument hitems isSeparator_nil hbehind
  rw [List.map_id] at hread
  rw [arguments, hopened, units, hread, Place.advance_advance, listText]
  simp only [List.length_nil, List.length_cons, List.length_append, Nat.zero_add, Nat.add_comm 1]

/-- Written arguments are read back where as many are expected. -/
theorem expectArguments_of_isUnit {us : List (List Char)} (hus : ∀ u ∈ us, IsUnit u ∧ u ≠ [])
    {count : Nat} (hcount : us.length = count) (reason : Nat → Reason) {p : Place}
    {rest : List Char} (hunread : p.unread = listText us ++ rest) :
    expectArguments count reason p = .ok us (p.advance (listText us).length) := by
  rw [expectArguments, bind_of_eq_ok (arguments_of_isUnit hus hunread), if_pos hcount]
  rfl

/-- Written named units are read back up to the closing parenthesis. -/
theorem namedUnits_of_isUnit {pairs : List (String × List Char)}
    (hpairs : ∀ pair ∈ pairs, IsUnit pair.2) (hnames : (pairs.map Prod.fst).Nodup) {p : Place}
    {rest : List Char}
    (hunread : p.unread = [','].intercalate (pairs.map namedText) ++ ')' :: rest) :
    ∃ q, namedUnits .hexDump p = .ok pairs q := by
  have hread := items_of_isItem (headway_namedUnit .hexDump)
    (fun pair hpair => isItem_namedText (hpairs pair hpair)) isSeparator_nil hunread
  rw [namedUnits, bind_of_eq_ok hread, Bindings.ofPairs_of_nodup hnames]
  exact ⟨_, rfl⟩

/-- Written named arguments are read back. -/
theorem namedArguments_of_isUnit {pairs : List (String × List Char)}
    (hpairs : ∀ pair ∈ pairs, IsUnit pair.2) (hnames : (pairs.map Prod.fst).Nodup) {p : Place}
    {rest : List Char} (hunread : p.unread = listText (pairs.map namedText) ++ rest) :
    ∃ q, namedArguments .hexDump p = .ok pairs q := by
  obtain ⟨hopened, hbehind⟩ := opened_of_listText (namedUnits .hexDump) hunread
  rw [namedArguments, hopened]
  exact namedUnits_of_isUnit hpairs hnames hbehind

/-- The written arguments of a user-defined type are read back, also if the keyspace or the name
is empty and only commas are left of it. -/
theorem userType_of_isUnit {keyspace : List Char} {name : String}
    {fields : List (String × List Char)} (hkeyspace : IsName keyspace)
    (hfields : ∀ field ∈ fields, IsUnit field.2) (hnames : (fields.map Prod.fst).Nodup)
    {p : Place} {rest : List Char}
    (hunread : p.unread =
      listText (keyspace :: (Text.HexDump.encode name).toList :: fields.map namedText) ++ rest) :
    ∃ q, userType .hexDump p = .ok ⟨keyspace, name, fields⟩ q := by
  have hdump : IsName (Text.HexDump.encode name).toList := isName_encode name
  have hdecode (p : Place) : decodeName .hexDump (Text.HexDump.encode name).toList p =
      .ok name p := decodeName_of_eq_ok (hexDump_encode name) p
  -- The text of the arguments, from piece to piece.
  obtain ⟨sep, hsep, htext, hstops⟩ := exists_intercalate_cons
    (Text.HexDump.encode name).toList (fields.map namedText)
  -- From here on the dump is any run of identifier characters that the decoder takes for
  -- the name.
  generalize (Text.HexDump.encode name).toList = dump at hdump hdecode htext hunread
  rw [listText, List.intercalate_cons_cons, htext] at hunread
  simp only [List.cons_append, List.append_assoc, List.nil_append] at hunread
  have hopened : (p.advance 1).unread = keyspace ++ (',' :: (dump ++ (sep ++
      ([','].intercalate (fields.map namedText) ++ ')' :: rest)))) := by
    rw [Place.unread_advance, hunread]
    rfl
  have hcomma := Place.unread_advance_of_append hopened
  have hname := Place.unread_advance_of_append (List.singleton_append.trans hcomma.symm).symm
  have hsecond := Place.unread_advance_of_append hname
  have hrest := Place.unread_advance_of_append hsecond
  obtain ⟨q, hq⟩ := namedUnits_of_isUnit hfields hnames hrest
  -- An empty name leaves two commas next to each other: the separator stops before the second.
  have hskip := skipSeparator_of_append isSeparator_comma hcomma fun c hc =>
    ⟨head_unit (isUnit_of_isName hdump) (hstops rest) c hc, fun _ => .head _⟩
  -- The second separator is passed here, so that the fields are read without one.
  have hskip' := skipSeparator_of_append hsep hsecond fun c hc =>
    let ⟨hblank, hne⟩ := head_items (fun pair _ => opens_namedText pair) c hc
    ⟨hblank, fun h => absurd h hne⟩
  -- The scan of the keyspace, the name and the fields, step by step.
  rw [userType, bind_of_eq_ok (mark_of_unread _ hunread (by decide)),
    bind_of_eq_ok (reads_unit (isUnit_of_isName hkeyspace) _ _ hopened .comma),
    bind_of_eq_ok (skipSeparator_apply _), hskip,
    bind_of_eq_ok (reads_unit (isUnit_of_isName hdump) _ _ hname (hstops rest)),
    bind_of_eq_ok (hdecode _), bind_of_eq_ok (skipSeparator_apply _), hskip', bind_of_eq_ok hq]
  exact ⟨q, rfl⟩

end Scan

end SchemaTypes.ClassName
