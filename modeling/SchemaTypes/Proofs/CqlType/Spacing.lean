import SchemaTypes.Proofs.ClassName.Spacing
import SchemaTypes.Proofs.CqlType.RoundTrip

/-!
# Blanks in class name expressions

Inside the outermost parentheses of a written expression, blanks between the pieces do not count.
One level is read through the blanks around its arguments, which keep those inside their own
parentheses; the arguments are read by induction.

## Main definitions

* `Bare.phrase`, `Expr.phrase`: classes and expressions in pieces.

## Main results

* `Expr.text_phrase`: without blanks the pieces are the text of the expression.
* `Layer.exists_ofClassName_of_isPadding`: the outermost level of a class with blanks.
* `ofChars_of_isPadding`: the type of an expression with blanks.
-/

namespace SchemaTypes

namespace ClassName

/-- Pieces between commas, put together. -/
theorem flatten_intercalate (lists : List (List (List Char))) :
    ([[',']].intercalate lists).flatten = [','].intercalate (lists.map List.flatten) := by
  induction lists with
  | nil => rfl
  | cons pieces lists ih =>
    cases lists with
    | nil => simp
    | cons next lists =>
      rw [List.map_cons, List.map_cons, List.intercalate_cons_cons, List.intercalate_cons_cons,
        List.flatten_append, List.flatten_append, ih]
      rfl

/-- Pieces between commas, in parentheses, are a written list. -/
theorem flatten_group (lists : List (List (List Char))) :
    '(' :: (([[',']].intercalate lists).flatten ++ [')']) = listText (lists.map List.flatten) := by
  rw [flatten_intercalate]
  rfl

theorem flatten_namedPieces (name : String) (phrase : Phrase) :
    (namedPieces name phrase).flatten = namedText (name, phrase.text) := by
  rw [namedPieces, namedText, List.flatten_cons, List.flatten_cons, phrase.flatten_pieces]
  rfl

/-- Blanks inside the parentheses do not change which words a class name starts with. -/
theorem isPrefixOf_of_isPadding {word : List Char} (hword : IsName word) {phrase : Phrase}
    {padded : List Char} (h : phrase.IsPadding padded) :
    word.isPrefixOf padded = word.isPrefixOf phrase.text := by
  cases phrase with
  | word text _ _ =>
    obtain rfl : padded = text := h
    rfl
  | call name inner _ _ _ =>
    obtain ⟨blanks, s, -, -, rfl⟩ := h
    rw [Phrase.text, isPrefixOf_append hword (by simp [isIdentifierChar]),
      isPrefixOf_append hword (by simp [isIdentifierChar])]

end ClassName

namespace CqlType

open ClassName Layer

namespace Bare

variable {α β γ : Type}

theorem mapParts_mapParts (f : α → β) (g : β → γ) (bare : Bare α) :
    (bare.mapParts f).mapParts g = bare.mapParts fun a => g (f a) := by
  cases bare <;> simp [mapParts]

theorem mapParts_congr {f g : α → β} {bare : Bare α} (h : ∀ a ∈ bare.parts, f a = g a) :
    bare.mapParts f = bare.mapParts g := by
  cases bare with
  | userType keyspace name fields =>
    have hfields : ∀ field ∈ fields, f field.2 = g field.2 := fun field hfield =>
      h _ (List.mem_map_of_mem hfield)
    simpa [mapParts] using hfields
  | native t => rfl
  | unknown u => rfl
  | _ => simpa [mapParts, parts] using h

theorem head_mapParts (f : α → β) (bare : Bare α) : (bare.mapParts f).head = bare.head := by
  cases bare <;> rfl

/-- The pieces of each argument. -/
def argumentPieces : Bare Phrase → List (List (List Char))
  | .native _ => []
  | .list element => [element.pieces]
  | .set element => [element.pieces]
  | .map key value => [key.pieces, value.pieces]
  | .tuple elements => elements.map Phrase.pieces
  | .userType keyspace name fields =>
    [keyspace.chars] :: [(Text.HexDump.encode name).toList] :: fieldPieces id fields
  | .unknown _ => []

theorem isBalanced_argumentPieces (bare : Bare Phrase) :
    ∀ pieces ∈ bare.argumentPieces, IsBalanced pieces := by
  cases bare with
  | userType keyspace name fields =>
    simp only [argumentPieces, List.forall_mem_cons, List.forall_mem_map]
    exact ⟨.cons keyspace.isName.balanced .nil, .cons (isName_encode name).balanced .nil,
      fun field _ => isBalanced_namedPieces field.1 field.2⟩
  | _ => simp [argumentPieces, Phrase.isBalanced_pieces]

/-- A class in pieces. Native and unknown classes are kept together. -/
def phrase (bare : Bare Phrase) : Phrase :=
  match bare with
  | .native t => .word (nativeClass t) (isUnit_of_isName (isName_nativeClass t))
      (Bare.className_ne_nil (α := Phrase) (.native t))
  | .unknown u => .word (u.name ++ u.group) ⟨u.name, u.group, rfl, u.isName, u.isGroup⟩
      (List.append_ne_nil_of_left_ne_nil u.name_ne_nil _)
  | bare => .call bare.className ([[',']].intercalate bare.argumentPieces) bare.isName_className
      bare.className_ne_nil (.intercalate bare.isBalanced_argumentPieces)

/-- Without blanks a class in pieces is written with the texts of its arguments. -/
theorem text_phrase (bare : Bare Phrase) : bare.phrase.text = (bare.mapParts Phrase.text).text := by
  have hcall (name : List Char) (lists : List (List (List Char))) :
      name ++ '(' :: (([[',']].intercalate lists).flatten ++ [')']) =
        name ++ listText (lists.map List.flatten) :=
    congrArg (name ++ ·) (flatten_group lists)
  cases bare with
  | native t => exact (List.append_nil _).symm
  | unknown u => rfl
  | list element =>
    refine (hcall _ [element.pieces]).trans ?_
    rw [List.map_singleton, element.flatten_pieces]
    rfl
  | set element =>
    refine (hcall _ [element.pieces]).trans ?_
    rw [List.map_singleton, element.flatten_pieces]
    rfl
  | map key value =>
    refine (hcall _ [key.pieces, value.pieces]).trans ?_
    rw [List.map_cons, List.map_singleton, key.flatten_pieces, value.flatten_pieces]
    rfl
  | tuple elements =>
    refine (hcall _ (elements.map Phrase.pieces)).trans ?_
    rw [List.map_map, List.map_congr_left fun element _ => element.flatten_pieces]
    rfl
  | userType keyspace name fields =>
    refine (hcall _ ([keyspace.chars] :: [(Text.HexDump.encode name).toList] ::
      fieldPieces id fields)).trans ?_
    have hfields : (fieldPieces id fields).map List.flatten =
        (fields.map fun field => (field.1, field.2.text)).map namedText := by
      simp only [List.map_map, Function.comp_def, flatten_namedPieces, id_eq]
    rw [List.map_cons, List.map_cons, hfields, List.flatten_singleton, List.flatten_singleton]
    rfl

/-- A class with blanks starts with its name, and one group follows or none. -/
theorem exists_of_isPadding {bare : Bare Phrase} {padded : List Char}
    (h : bare.phrase.IsPadding padded) :
    ∃ group, padded = bare.className ++ group ∧ (group = [] ∨ IsGroup group) := by
  have hcall (hphrase : bare.phrase = .call bare.className ([[',']].intercalate bare.argumentPieces)
      bare.isName_className bare.className_ne_nil (.intercalate bare.isBalanced_argumentPieces)) :
      ∃ group, padded = bare.className ++ group ∧ (group = [] ∨ IsGroup group) := by
    rw [hphrase] at h
    obtain ⟨blanks, s, hblanks, hs, rfl⟩ := h
    exact ⟨_, rfl, .inr (isGroup_of_spread (.intercalate bare.isBalanced_argumentPieces)
      hblanks hs)⟩
  cases bare with
  | native t => exact ⟨[], h.trans (List.append_nil _).symm, .inl rfl⟩
  | unknown u => exact ⟨u.group, h, u.isGroup⟩
  | _ => exact hcall rfl

/-- A class is kept together, or it is one with arguments, behind whose name a parenthesis
follows. -/
theorem eq_or_exists_of_isPadding {bare : Bare Phrase} {padded : List Char}
    (h : bare.phrase.IsPadding padded) :
    padded = bare.phrase.text ∨
      ∃ name ∈ structuredClasses, ∃ rest, padded = name ++ '(' :: rest := by
  have hcall (hphrase : bare.phrase = .call bare.className ([[',']].intercalate bare.argumentPieces)
      bare.isName_className bare.className_ne_nil (.intercalate bare.isBalanced_argumentPieces))
      (hstructured : bare.className ∈ structuredClasses) :
      ∃ name ∈ structuredClasses, ∃ rest, padded = name ++ '(' :: rest := by
    rw [hphrase] at h
    obtain ⟨_, _, -, -, rfl⟩ := h
    exact ⟨_, hstructured, _, rfl⟩
  cases bare with
  | native t => exact .inl h
  | unknown u => exact .inl h
  | _ => exact .inr (hcall rfl (by simp [className, structuredClasses]))

/-- A class with blanks starts with neither wrapper. -/
theorem isBare_of_isPadding {bare : Bare Phrase} {padded : List Char}
    (h : bare.phrase.IsPadding padded) : IsBare padded := by
  obtain ⟨group, rfl, hgroup⟩ := exists_of_isPadding h
  obtain ⟨hreversed, hfrozen⟩ := bare.isBare_className
  have hend := head_group hgroup .nil
  rw [List.append_nil] at hend
  exact ⟨(isReversed_append fun c hc => (hend c hc).1).trans hreversed,
    (isFrozen_append fun c hc => (hend c hc).1).trans hfrozen⟩

end Bare

namespace Layer

/-- A class in pieces with the wrapper around it. -/
def Wrapper.phrase : Wrapper → Phrase → Phrase
  | .none, phrase => phrase
  | .frozen, phrase => .call frozenClass phrase.pieces isName_frozenClass
      (inPackage_ne_nil _) phrase.isBalanced_pieces
  | .reversed, phrase => .call reversedClass phrase.pieces isName_reversedClass
      (inPackage_ne_nil _) phrase.isBalanced_pieces

theorem Wrapper.text_phrase (wrapper : Wrapper) (phrase : Phrase) :
    (wrapper.phrase phrase).text = wrapper.around phrase.text := by
  have hlist : '(' :: (phrase.pieces.flatten ++ [')']) = listText [phrase.text] := by
    rw [phrase.flatten_pieces, listText, List.intercalate_singleton]
  cases wrapper with
  | none => rfl
  | frozen => exact congrArg (frozenClass ++ ·) hlist
  | reversed => exact congrArg (reversedClass ++ ·) hlist

/-- The only argument is read through the blanks around it. -/
theorem soleArgument_of_spread {word : List Char} (hword : IsName word) {phrase : Phrase}
    {blanks text : List Char} (hblanks : IsBlanks blanks) (htext : Spread phrase.pieces text) :
    ∃ u, phrase.IsPadding u ∧
      soleArgument (word ++ '(' :: (blanks ++ (text ++ [')']))) = .ok u := by
  obtain ⟨hskip, -, hafter⟩ := Place.start_unit hword
    (.inr (isGroup_of_spread phrase.isBalanced_pieces hblanks htext))
  have hlist : Spread ([[',']].intercalate ([phrase].map fun p => (id p).pieces)) text := by
    rwa [List.map_singleton, List.intercalate_singleton]
  obtain ⟨read, hread, hpadding, q, hq⟩ := Scan.expectArguments_of_spread hblanks hlist
    List.length_singleton .soleArgumentExpected hafter
  obtain ⟨⟨_, u⟩, rfl, rfl⟩ := List.map_eq_singleton_iff.1 hread
  refine ⟨u, hpadding _ (.head _), ?_⟩
  rw [soleArgument, hskip, hq]
  rfl

/-- A wrapper with blanks inside is taken off, together with these blanks. -/
theorem exists_unwrap_of_isPadding {wrapper : Wrapper} {bare : Bare Phrase} {padded : List Char}
    (h : (wrapper.phrase bare.phrase).IsPadding padded) :
    ∃ u, bare.phrase.IsPadding u ∧ unwrap padded = .ok (wrapper, u) := by
  have hhead (rest : List Char) : ∀ c ∈ ('(' :: rest).head?, isIdentifierChar c = false := by
    simp [isIdentifierChar]
  cases wrapper with
  | none =>
    obtain ⟨hreversed, hfrozen⟩ := Bare.isBare_of_isPadding h
    exact ⟨padded, h, by rw [unwrap, if_neg (by simp [hreversed]), if_neg (by simp [hfrozen])]⟩
  | frozen =>
    obtain ⟨blanks, s, hblanks, hs, rfl⟩ := h
    obtain ⟨u, hu, hsole⟩ := soleArgument_of_spread isName_frozenClass hblanks hs
    have hreversed : isReversed frozenClass = false := by decide +kernel
    have hfrozen : isFrozen frozenClass = true := by decide +kernel
    refine ⟨u, hu, ?_⟩
    rw [unwrap, isReversed_append (hhead _), hreversed, isFrozen_append (hhead _), hfrozen, hsole]
    rfl
  | reversed =>
    obtain ⟨blanks, s, hblanks, hs, rfl⟩ := h
    obtain ⟨u, hu, hsole⟩ := soleArgument_of_spread isName_reversedClass hblanks hs
    have hreversed : isReversed reversedClass = true := by decide +kernel
    refine ⟨u, hu, ?_⟩
    rw [unwrap, isReversed_append (hhead _), hreversed, hsole]
    rfl

variable {α : Type} {phraseOf : α → Phrase}

/-- The group of a class with blanks stands behind its name. -/
theorem unread_afterName_of_spread {name : List Char} (hname : IsName name)
    {inner : List (List Char)} (hinner : IsBalanced inner) {blanks text : List Char}
    (hblanks : IsBlanks blanks) (htext : Spread inner text) :
    (Place.start (name ++ '(' :: (blanks ++ (text ++ [')'])))).skipBlanks.afterName.unread =
      '(' :: (blanks ++ (text ++ [')'])) := by
  obtain ⟨hskip, -, hafter⟩ :=
    Place.start_unit hname (.inr (isGroup_of_spread hinner hblanks htext))
  rw [hskip, hafter]

/-- The arguments of a collection are read through the blanks around them. -/
theorem exists_ofArguments_collection (kind : CollectionKind) {as : List α}
    (hcount : as.length = kind.arity) {blanks text : List Char} (hblanks : IsBlanks blanks)
    (htext : Spread ([[',']].intercalate (as.map fun a => (phraseOf a).pieces)) text)
    {padded : List Char} (hpadded : padded = kind.className ++ '(' :: (blanks ++ (text ++ [')'])))
    (frozen : Bool) :
    ∃ read : List (α × List Char), read.map Prod.fst = as ∧
      (∀ part ∈ read, (phraseOf part.1).IsPadding part.2) ∧
      ofArguments .hexDump frozen padded (Place.start padded).skipBlanks.afterName
        (.collection kind) = ofElements frozen kind (read.map Prod.snd) := by
  have hbalanced : IsBalanced ([[',']].intercalate (as.map fun a => (phraseOf a).pieces)) :=
    .intercalate (List.forall_mem_map.2 fun a _ => (phraseOf a).isBalanced_pieces)
  have hunread := unread_afterName_of_spread (isName_className kind) hbalanced hblanks htext
  rw [← hpadded] at hunread
  obtain ⟨read, hread, hpadding, q, hq⟩ :=
    Scan.expectArguments_of_spread hblanks htext hcount (.argumentCount kind) hunread
  exact ⟨read, hread, hpadding, by simp only [ofArguments, hq]⟩

/-- The arguments of a class are read through the blanks around them. -/
theorem exists_ofArguments_of_isPadding {bare : Bare α} (hnames : bare.fieldNames.Nodup)
    {padded : List Char} (h : (bare.mapParts phraseOf).phrase.IsPadding padded) (frozen : Bool) :
    ∃ read : Bare (α × List Char), read.mapParts Prod.fst = bare ∧
      (∀ part ∈ read.parts, (phraseOf part.1).IsPadding part.2) ∧
      ofArguments .hexDump frozen padded (Place.start padded).skipBlanks.afterName bare.head =
        .ok ((read.mapParts Prod.snd).layer frozen) := by
  have hbalanced := IsBalanced.intercalate (bare.mapParts phraseOf).isBalanced_argumentPieces
  have hname := (bare.mapParts phraseOf).isName_className
  cases bare with
  | native t => exact ⟨.native t, rfl, by simp, rfl⟩
  | unknown u =>
    obtain rfl : padded = u.name ++ u.group := h
    exact ⟨.unknown u, rfl, by simp, rfl⟩
  | list element =>
    obtain ⟨blanks, s, hblanks, hs, hpadded⟩ := h
    have hlist : Spread ([[',']].intercalate ([element].map fun a => (phraseOf a).pieces)) s := hs
    obtain ⟨read, hread, hpadding, hlayer⟩ :=
      exists_ofArguments_collection .list rfl hblanks hlist hpadded frozen
    obtain ⟨⟨_, u⟩, rfl, rfl⟩ := List.map_eq_singleton_iff.1 hread
    exact ⟨.list (_, u), rfl, hpadding, hlayer⟩
  | set element =>
    obtain ⟨blanks, s, hblanks, hs, hpadded⟩ := h
    have hlist : Spread ([[',']].intercalate ([element].map fun a => (phraseOf a).pieces)) s := hs
    obtain ⟨read, hread, hpadding, hlayer⟩ :=
      exists_ofArguments_collection .set rfl hblanks hlist hpadded frozen
    obtain ⟨⟨_, u⟩, rfl, rfl⟩ := List.map_eq_singleton_iff.1 hread
    exact ⟨.set (_, u), rfl, hpadding, hlayer⟩
  | map key value =>
    obtain ⟨blanks, s, hblanks, hs, hpadded⟩ := h
    have hlist : Spread ([[',']].intercalate ([key, value].map fun a => (phraseOf a).pieces)) s :=
      hs
    obtain ⟨read, hread, hpadding, hlayer⟩ :=
      exists_ofArguments_collection .map rfl hblanks hlist hpadded frozen
    obtain ⟨⟨_, u⟩, rest, rfl, rfl, hrest⟩ := List.map_eq_cons_iff.1 hread
    obtain ⟨⟨_, v⟩, rfl, rfl⟩ := List.map_eq_singleton_iff.1 hrest
    exact ⟨.map (_, u) (_, v), rfl, hpadding, hlayer⟩
  | tuple elements =>
    obtain ⟨blanks, s, hblanks, hs, rfl⟩ := h
    have hunread := unread_afterName_of_spread hname hbalanced hblanks hs
    have hlist : Spread ([[',']].intercalate (elements.map fun a => (phraseOf a).pieces)) s := by
      rwa [Bare.mapParts, Bare.argumentPieces, List.map_map] at hs
    obtain ⟨read, rfl, hpadding, q, hq⟩ := Scan.arguments_of_spread hblanks hlist hunread
    refine ⟨.tuple read, rfl, hpadding, ?_⟩
    simp only [Bare.head, ofArguments, hq]
    rfl
  | userType keyspace name fields =>
    obtain ⟨blanks, s, hblanks, hs, rfl⟩ := h
    have hunread := unread_afterName_of_spread hname hbalanced hblanks hs
    have hlist : Spread ([[',']].intercalate ([keyspace.chars] ::
        [(Text.HexDump.encode name).toList] :: fieldPieces phraseOf fields)) s := by
      rwa [Bare.mapParts, Bare.argumentPieces, fieldPieces, List.map_map] at hs
    obtain ⟨read, rfl, hpadding, q, hq⟩ :=
      Scan.userType_of_spread keyspace.isName hnames hblanks hlist hunread
    refine ⟨.userType keyspace name (read.map fun part => (part.1.1, part.1.2, part.2)), ?_, ?_, ?_⟩
    · simp [Bare.mapParts]
    · simp only [Bare.parts, List.map_map, List.forall_mem_map]
      exact hpadding
    · simp only [Bare.head, ofArguments, hq]
      simp only [Bare.mapParts, Bare.layer, List.map_map, Function.comp_def]

/-- What is reported about a class: the wrapper around it, and that it is not known. -/
def reports (sink : Sink) (wrapper : Wrapper) (bare : Bare Phrase) : Reading Unit := do
  reportWrapper sink wrapper bare.head
  reportUnknown bare.head bare.phrase.text

/-- An unknown class is reported without blanks, which it never has around its group. -/
theorem reportUnknown_of_isPadding {bare : Bare Phrase} {padded : List Char}
    (h : bare.phrase.IsPadding padded) :
    reportUnknown bare.head padded = reportUnknown bare.head bare.phrase.text := by
  cases bare with
  | unknown u =>
    obtain rfl : padded = u.name ++ u.group := h
    rfl
  | _ => rfl

/-- The outermost level of a class with blanks: each argument keeps the blanks inside its own
parentheses. -/
theorem exists_ofClassName_of_isPadding {wrapper : Wrapper} {bare : Bare α}
    (hnames : bare.fieldNames.Nodup) {padded : List Char}
    (h : (wrapper.phrase (bare.mapParts phraseOf).phrase).IsPadding padded) (sink : Sink) :
    ∃ read : Bare (α × List Char), read.mapParts Prod.fst = bare ∧
      (∀ part ∈ read.parts, (phraseOf part.1).IsPadding part.2) ∧
      ofClassName .hexDump sink padded = (do
        reports sink wrapper (bare.mapParts phraseOf)
        pure ((read.mapParts Prod.snd).layer (wrapper = .frozen))) := by
  obtain ⟨u, hu, hunwrap⟩ := exists_unwrap_of_isPadding h
  obtain ⟨read, hread, hpadding, hlayer⟩ :=
    exists_ofArguments_of_isPadding hnames hu (wrapper = .frozen)
  obtain ⟨group, hgroupText, hgroup⟩ := Bare.exists_of_isPadding hu
  obtain ⟨hskip, hname, -⟩ := Place.start_unit (bare.mapParts phraseOf).isName_className hgroup
  rw [← hgroupText] at hskip hname
  refine ⟨read, hread, hpadding, ?_⟩
  rw [ofClassName, hunwrap]
  change ofUnwrapped .hexDump sink wrapper u = _
  have hhead : Head.ofName (Place.start u).skipBlanks.name = bare.head := by
    rw [hskip, hname, Bare.ofName_className, Bare.head_mapParts]
  rw [ofUnwrapped, hhead, hlayer, reports, Reading.bind_assoc, Bare.head_mapParts,
    ← Bare.head_mapParts phraseOf bare, ← reportUnknown_of_isPadding hu]
  rfl

end Layer

/-- Parts that are read alike may stand for each other. -/
theorem traverse_layer_congr {α β γ : Type} {bare : Bare α} {f g : α → β} {read : β → Reading γ}
    (h : ∀ a ∈ bare.parts, read (f a) = read (g a)) (frozen : Bool) :
    (((bare.mapParts f).layer frozen).traverse fun part _ => read part) =
      ((bare.mapParts g).layer frozen).traverse fun part _ => read part := by
  cases bare with
  | native t => rfl
  | unknown u => rfl
  | list element =>
    change (read (f element) >>= _) = (read (g element) >>= _)
    rw [h element (.head _)]
  | set element =>
    change (read (f element) >>= _) = (read (g element) >>= _)
    rw [h element (.head _)]
  | map key value =>
    change (read (f key) >>= fun _ => read (f value) >>= _) =
      (read (g key) >>= fun _ => read (g value) >>= _)
    rw [h key (.head _), h value (.tail _ (.head _))]
  | tuple elements =>
    have helements : ∀ a ∈ elements, read (f a) = read (g a) := h
    change (Reading.each (elements.map f) (fun part _ => read part) >>= _) =
      (Reading.each (elements.map g) (fun part _ => read part) >>= _)
    rw [Reading.each_map_congr helements]
  | userType keyspace name fields =>
    have hfields : ∀ field ∈ fields, read (f field.2) = read (g field.2) :=
      fun field hfield => h _ (List.mem_map_of_mem hfield)
    change (Reading.each (Bindings.values (fields.map fun field => (field.1, f field.2)))
        (fun part _ => read part) >>= fun types => pure (Layer.udt _ _ (List.zip _ types))) =
      (Reading.each (Bindings.values (fields.map fun field => (field.1, g field.2)))
        (fun part _ => read part) >>= fun types => pure (Layer.udt _ _ (List.zip _ types)))
    rw [Bindings.values_map, Bindings.values_map, Bindings.names_map, Bindings.names_map,
      Reading.each_map_congr hfields]

/-- The type of a class name with a given outermost level, with what is reported about it. -/
theorem ofChars_of_ofClassName {decoder : Decoder} {sink : Sink} {className : List Char}
    {reports : Reading Unit} {layer : Layer (List Char)}
    (h : Layer.ofClassName decoder sink className = (do reports; pure layer)) :
    ofChars decoder sink className = (do
      reports
      let types ← layer.traverse fun part _ => ofChars decoder sink part
      pure (ofLayer types)) := by
  rw [Reading.bind_pure_eq_map] at h
  obtain ⟨events, fault | _⟩ := reports
  · rw [ofChars]
    split
    · next heq =>
      cases heq.symm.trans h
      rfl
    · next heq => cases heq.symm.trans h
  · rw [ofChars]
    split
    · next heq => cases heq.symm.trans h
    · next heq =>
      cases heq.symm.trans h
      rw [Reading.bind_pure_eq_map]
      rfl

namespace Expr

/-- An expression in pieces. -/
def phrase : Expr → Phrase := fold fun wrapper bare => wrapper.phrase bare.phrase

theorem phrase_mk (wrapper : Wrapper) (bare : Bare Expr) :
    phrase (.mk wrapper bare) = wrapper.phrase (bare.mapParts phrase).phrase :=
  fold_mk _ wrapper bare

/-- Without blanks the pieces are the text of the expression. -/
theorem text_phrase (e : Expr) : e.phrase.text = e.render := by
  induction e using induct with
  | mk wrapper bare ih =>
    rw [phrase_mk, render_mk, wrapper.text_phrase, Bare.text_phrase, Bare.mapParts_mapParts,
      Bare.mapParts_congr ih]

/-- An expression is kept together, or a parenthesis follows the name of a wrapper or of a class
with arguments. -/
theorem eq_or_exists_of_isPadding {e : Expr} {padded : List Char} (h : e.phrase.IsPadding padded) :
    padded = e.render ∨ ∃ name ∈ structuredClasses, ∃ rest, padded = name ++ '(' :: rest := by
  rw [← text_phrase]
  obtain ⟨wrapper, bare⟩ := e
  rw [phrase_mk] at h ⊢
  cases wrapper with
  | none => exact Bare.eq_or_exists_of_isPadding h
  | frozen =>
    obtain ⟨_, _, _, _, rfl⟩ := h
    exact .inr ⟨_, .tail _ (.head _), _, rfl⟩
  | reversed =>
    obtain ⟨_, _, _, _, rfl⟩ := h
    exact .inr ⟨_, .head _, _, rfl⟩

end Expr

/-- Blanks between the pieces of an expression do not change what is read. -/
theorem ofChars_of_isPadding {e : Expr} (he : e.DistinctFields) {padded : List Char}
    (h : e.phrase.IsPadding padded) (sink : Sink) :
    ofChars .hexDump sink padded = ofChars .hexDump sink e.render := by
  induction e using Expr.induct generalizing padded with
  | mk wrapper bare ih =>
    obtain ⟨hnames, hparts⟩ := (Expr.distinctFields_mk wrapper bare).1 he
    -- With blanks and without, the expression is read like the texts of its arguments.
    have hread : ∀ text, (Expr.mk wrapper bare).phrase.IsPadding text →
        ofChars .hexDump sink text = (do
          reports sink wrapper (bare.mapParts Expr.phrase)
          let types ← ((bare.mapParts Expr.render).layer (wrapper = .frozen)).traverse
            fun part _ => ofChars .hexDump sink part
          pure (ofLayer types)) := by
      intro text htext
      rw [Expr.phrase_mk] at htext
      obtain ⟨read, hread, hpadding, hlayer⟩ := exists_ofClassName_of_isPadding hnames htext sink
      have hsame : ∀ part ∈ read.parts,
          ofChars .hexDump sink part.2 = ofChars .hexDump sink part.1.render := by
        intro part hpart
        have hmem : part.1 ∈ bare.parts := by
          rw [← hread, Bare.parts_mapParts]
          exact List.mem_map_of_mem hpart
        exact ih part.1 hmem (hparts _ hmem) (hpadding part hpart)
      rw [ofChars_of_ofClassName hlayer, traverse_layer_congr hsame, ← hread,
        Bare.mapParts_mapParts, Bare.mapParts_mapParts]
    rw [hread padded h, hread _ ((Expr.text_phrase _) ▸ Phrase.isPadding_text _)]

end CqlType

end SchemaTypes
