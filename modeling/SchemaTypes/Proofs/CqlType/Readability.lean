import SchemaTypes.CqlType.Printer
import SchemaTypes.Proofs.CqlType.Tree
import SchemaTypes.Proofs.Text.Identifier

/-!
# The CQL spelling tells the type

A type is spelled as a name, two names with a dot between them, a name with arguments in angle
brackets, or an unknown class between single quotes. The names are written as identifiers are, so
each of them shows where it ends, and the character behind it tells which of the forms it is. That
makes the spelling readable in one way only, even where names and keywords coincide.

The fields of user-defined types are not spelled, and an unknown class with a single quote in its
name may end anywhere.

## Main definitions

* `CqlType.withoutFields`: the type without the fields of its user-defined types.
* `Spelling`: the tree of a spelling, with its text.
* `CqlType.spelling`: the spelling of a type as a tree.

## Main results

* `CqlType.toList_toCql`: a type is printed as its spelling.
* `Spelling.text_append_inj`: a text is read as a spelling in one way only.
* `CqlType.toCql_eq_iff`: types are printed alike if and only if they are the same without fields.
-/

namespace SchemaTypes.CqlType

open Text (append_inj_of_head)
open Text.Identifier

mutual

/-- The type without the fields of its user-defined types. -/
def withoutFields : CqlType → CqlType
  | .native t => .native t
  | .list frozen element => .list frozen element.withoutFields
  | .set frozen element => .set frozen element.withoutFields
  | .map frozen key value => .map frozen key.withoutFields value.withoutFields
  | .udt frozen keyspace name _ => .udt frozen keyspace name []
  | .tuple elements => .tuple (allWithoutFields elements)
  | .custom className => .custom className

/-- Types without the fields of their user-defined types. -/
def allWithoutFields : List CqlType → List CqlType
  | [] => []
  | t :: rest => t.withoutFields :: allWithoutFields rest

end

theorem allWithoutFields_eq_map (types : List CqlType) :
    allWithoutFields types = types.map withoutFields := by
  induction types with
  | nil => rfl
  | cons t rest ih => rw [allWithoutFields, ih, List.map_cons]

/-- The tree of a spelling. -/
inductive Spelling
  /-- A name alone. -/
  | named (name : String)
  /-- Two names with a dot between them. -/
  | dotted (keyspace name : String)
  /-- A name with arguments in angle brackets. -/
  | bracketed (name : String) (arguments : List Spelling)
  /-- A class name between single quotes. -/
  | verbatim (className : String)

namespace Spelling

mutual

/-- The text of a spelling. -/
def text : Spelling → List Char
  | .named name => (quote name).toList
  | .dotted keyspace name => (quote keyspace).toList ++ '.' :: (quote name).toList
  | .bracketed name arguments => (quote name).toList ++ '<' :: argumentsText arguments
  | .verbatim className => '\'' :: (className.toList ++ ['\''])

/-- The text of the arguments up to the closing bracket. -/
def argumentsText : List Spelling → List Char
  | [] => ['>']
  | argument :: rest => argument.text ++ furtherText rest

/-- The text of arguments behind the first one, up to the closing bracket. -/
def furtherText : List Spelling → List Char
  | [] => ['>']
  | argument :: rest => ',' :: ' ' :: (argument.text ++ furtherText rest)

end

/-- Arguments are written with a comma and a blank between them. -/
theorem argumentsText_eq_intercalate (arguments : List Spelling) :
    argumentsText arguments = [',', ' '].intercalate (arguments.map text) ++ ['>'] := by
  cases arguments with
  | nil => rfl
  | cons argument rest =>
    rw [argumentsText]
    induction rest generalizing argument with
    | nil => simp [furtherText]
    | cons next rest ih => simp [furtherText, ih next]

/-- A bare name with arguments. -/
theorem text_bracketed (word : String) (h : quote word = word) (arguments : List Spelling) :
    (bracketed word arguments).text =
      word.toList ++ '<' :: ([',', ' '].intercalate (arguments.map text) ++ ['>']) := by
  rw [text, h, argumentsText_eq_intercalate]

mutual

/-- Every class name that is kept verbatim is without single quotes, so it shows where it ends. -/
def Readable : Spelling → Prop
  | .bracketed _ arguments => AllReadable arguments
  | .verbatim className => '\'' ∉ className.toList
  | _ => True

/-- All the spellings are readable. -/
def AllReadable : List Spelling → Prop
  | [] => True
  | argument :: rest => argument.Readable ∧ AllReadable rest

end

/-- The text is at its end, or goes on as behind a type inside brackets. -/
def EndsType (rest : List Char) : Prop := ∀ c ∈ rest.head?, c = ',' ∨ c = '>'

theorem EndsType.endsName {rest : List Char} (h : EndsType rest) : EndsName rest := by
  intro c hc
  obtain rfl | rfl := h c hc <;> decide

/-- What follows an argument ends it. -/
theorem endsType_furtherText (arguments : List Spelling) (rest : List Char) :
    EndsType (furtherText arguments ++ rest) := by
  cases arguments <;> simp [EndsType, furtherText]

/-- A spelling other than that of an unknown class starts with a letter or a double quote. -/
theorem eq_verbatim_or_exists_text (s : Spelling) :
    (∃ className, s = .verbatim className) ∨
      ∃ c tail, s.text = c :: tail ∧ (isLower c = true ∨ c = '"') := by
  cases s with
  | named name => exact .inr (exists_toList_quote name)
  | dotted keyspace name =>
    obtain ⟨c, tail, hname, hstart⟩ := exists_toList_quote keyspace
    exact .inr ⟨c, _, by rw [text, hname, List.cons_append], hstart⟩
  | bracketed name arguments =>
    obtain ⟨c, tail, hname, hstart⟩ := exists_toList_quote name
    exact .inr ⟨c, _, by rw [text, hname, List.cons_append], hstart⟩
  | verbatim className => exact .inl ⟨className, rfl⟩

/-- Only the spelling of an unknown class starts with a single quote, and it ends at the next
one. -/
theorem eq_verbatim {s : Spelling} {className : String} {rest rest' : List Char}
    (hs : s.Readable) (hclass : '\'' ∉ className.toList)
    (h : s.text ++ rest = (verbatim className).text ++ rest') :
    s = verbatim className ∧ rest = rest' := by
  obtain ⟨className', rfl⟩ | ⟨c, tail, htext, hstart⟩ := s.eq_verbatim_or_exists_text
  · simp only [text, List.cons_append, List.append_assoc, List.cons.injEq, true_and] at h
    have hunquoted {className : String} (hclass : '\'' ∉ className.toList) :
        ∀ c ∈ className.toList, (c != '\'') = true := fun c hc => by
      simpa using ne_of_mem_of_not_mem hc hclass
    obtain ⟨hname, hrest⟩ := append_inj_of_head (hunquoted hs) (hunquoted hclass) (by simp)
      (by simp) h
    exact ⟨congrArg verbatim (String.toList_injective hname), List.tail_eq_of_cons_eq hrest⟩
  · rw [htext] at h
    obtain rfl : c = '\'' := List.head_eq_of_cons_eq h
    exact absurd hstart (by decide)

/-- No spelling starts with a closing bracket. -/
theorem text_append_ne (s : Spelling) (rest rest' : List Char) : s.text ++ rest ≠ '>' :: rest' := by
  obtain ⟨className, rfl⟩ | ⟨c, tail, htext, hstart⟩ := s.eq_verbatim_or_exists_text
  · simp [text]
  · intro heq
    rw [htext] at heq
    obtain rfl : c = '>' := List.head_eq_of_cons_eq heq
    exact absurd hstart (by decide)

/-- A dot or an opening bracket ends a name. -/
theorem endsName_cons {c : Char} (hc : c = '.' ∨ c = '<') (rest : List Char) :
    EndsName (c :: rest) := by
  obtain rfl | rfl := hc <;> exact .cons (by decide) (by decide) rest

/-- A name at the end of a type has neither a dot nor an opening bracket behind it. -/
theorem quote_append_ne {name name' : String} {c : Char} {rest rest' : List Char}
    (hrest : EndsType rest) (hc : c = '.' ∨ c = '<') :
    (quote name).toList ++ rest ≠ (quote name').toList ++ c :: rest' := by
  intro h
  obtain ⟨-, rfl⟩ := quote_append_inj hrest.endsName (endsName_cons hc rest') h
  obtain rfl | rfl := hrest c rfl <;> exact absurd hc (by decide)

/-- A name that goes on with a dot or an opening bracket tells which of them, and what follows. -/
theorem quote_cons_inj {name name' : String} {c c' : Char} {rest rest' : List Char}
    (hc : c = '.' ∨ c = '<') (hc' : c' = '.' ∨ c' = '<')
    (h : (quote name).toList ++ c :: rest = (quote name').toList ++ c' :: rest') :
    name = name' ∧ c = c' ∧ rest = rest' := by
  obtain ⟨rfl, hrest⟩ := quote_append_inj (endsName_cons hc rest) (endsName_cons hc' rest') h
  exact ⟨rfl, List.cons.inj hrest⟩

mutual

/-- A text is read as a spelling in one way only, and shows where the spelling ends. -/
theorem text_append_inj : (s : Spelling) → {s' : Spelling} → {rest rest' : List Char} →
    s.Readable → s'.Readable → EndsType rest → EndsType rest' →
    s.text ++ rest = s'.text ++ rest' → s = s' ∧ rest = rest'
  -- The induction is on the first spelling. The character behind its first name excludes all but
  -- one form of the second.
  | .verbatim className, s', rest, rest', hs, hs', _, _, h => by
    obtain ⟨rfl, rfl⟩ := eq_verbatim hs' hs h.symm
    exact ⟨rfl, rfl⟩
  | .named name, s', rest, rest', hs, hs', hrest, hrest', h => by
    cases s' with
    | verbatim className' => exact eq_verbatim hs hs' h
    | named name' =>
      obtain ⟨rfl, rfl⟩ := quote_append_inj hrest.endsName hrest'.endsName h
      exact ⟨rfl, rfl⟩
    | dotted keyspace' name' =>
      rw [text, text, List.append_assoc, List.cons_append] at h
      exact (quote_append_ne hrest (.inl rfl) h).elim
    | bracketed name' arguments' =>
      rw [text, text, List.append_assoc, List.cons_append] at h
      exact (quote_append_ne hrest (.inr rfl) h).elim
  | .dotted keyspace name, s', rest, rest', hs, hs', hrest, hrest', h => by
    cases s' with
    | verbatim className' => exact eq_verbatim hs hs' h
    | named name' =>
      rw [text, text, List.append_assoc, List.cons_append] at h
      exact (quote_append_ne hrest' (.inl rfl) h.symm).elim
    | dotted keyspace' name' =>
      simp only [text, List.append_assoc, List.cons_append] at h
      obtain ⟨rfl, -, hname⟩ := quote_cons_inj (.inl rfl) (.inl rfl) h
      obtain ⟨rfl, rfl⟩ := quote_append_inj hrest.endsName hrest'.endsName hname
      exact ⟨rfl, rfl⟩
    | bracketed name' arguments' =>
      simp only [text, List.append_assoc, List.cons_append] at h
      exact absurd (quote_cons_inj (.inl rfl) (.inr rfl) h).2.1 (by decide)
  | .bracketed name arguments, s', rest, rest', hs, hs', hrest, hrest', h => by
    cases s' with
    | verbatim className' => exact eq_verbatim hs hs' h
    | named name' =>
      rw [text, text, List.append_assoc, List.cons_append] at h
      exact (quote_append_ne hrest' (.inr rfl) h.symm).elim
    | dotted keyspace' name' =>
      simp only [text, List.append_assoc, List.cons_append] at h
      exact absurd (quote_cons_inj (.inr rfl) (.inl rfl) h).2.1 (by decide)
    | bracketed name' arguments' =>
      simp only [text, List.append_assoc, List.cons_append] at h
      obtain ⟨rfl, -, harguments⟩ := quote_cons_inj (.inr rfl) (.inr rfl) h
      obtain ⟨rfl, rfl⟩ := argumentsText_append_inj arguments hs hs' harguments
      exact ⟨rfl, rfl⟩

/-- Arguments up to the closing bracket are read in one way only. -/
theorem argumentsText_append_inj : (arguments : List Spelling) → {arguments' : List Spelling} →
    {rest rest' : List Char} → AllReadable arguments → AllReadable arguments' →
    argumentsText arguments ++ rest = argumentsText arguments' ++ rest' →
    arguments = arguments' ∧ rest = rest'
  | [], arguments', rest, rest', hs, hs', h => by
    cases arguments' with
    | nil => exact ⟨rfl, List.tail_eq_of_cons_eq h⟩
    | cons argument' more' =>
      rw [argumentsText, argumentsText, List.append_assoc] at h
      exact (text_append_ne argument' _ _ h.symm).elim
  | argument :: more, arguments', rest, rest', hs, hs', h => by
    cases arguments' with
    | nil =>
      rw [argumentsText, argumentsText, List.append_assoc] at h
      exact (text_append_ne argument _ _ h).elim
    | cons argument' more' =>
      rw [argumentsText, argumentsText, List.append_assoc, List.append_assoc] at h
      obtain ⟨rfl, hmore⟩ := text_append_inj argument hs.1 hs'.1 (endsType_furtherText more rest)
        (endsType_furtherText more' rest') h
      obtain ⟨rfl, rfl⟩ := furtherText_append_inj more hs.2 hs'.2 hmore
      exact ⟨rfl, rfl⟩

/-- The arguments behind the first one are read in one way only. -/
theorem furtherText_append_inj : (arguments : List Spelling) → {arguments' : List Spelling} →
    {rest rest' : List Char} → AllReadable arguments → AllReadable arguments' →
    furtherText arguments ++ rest = furtherText arguments' ++ rest' →
    arguments = arguments' ∧ rest = rest'
  | [], arguments', rest, rest', hs, hs', h => by
    cases arguments' with
    | nil => exact ⟨rfl, List.tail_eq_of_cons_eq h⟩
    | cons argument' more' => simp [furtherText] at h
  | argument :: more, arguments', rest, rest', hs, hs', h => by
    cases arguments' with
    | nil => simp [furtherText] at h
    | cons argument' more' =>
      simp only [furtherText, List.cons_append, List.append_assoc, List.cons.injEq, true_and] at h
      obtain ⟨rfl, hmore⟩ := text_append_inj argument hs.1 hs'.1 (endsType_furtherText more rest)
        (endsType_furtherText more' rest') h
      obtain ⟨rfl, rfl⟩ := furtherText_append_inj more hs.2 hs'.2 hmore
      exact ⟨rfl, rfl⟩

end

/-- The same type frozen. -/
def frozenType : CqlType → CqlType
  | .list _ element => .list true element
  | .set _ element => .set true element
  | .map _ key value => .map true key value
  | .udt _ keyspace name fields => .udt true keyspace name fields
  | t => t

/-- The type that a name stands for over the types of its arguments. -/
def ofArguments : String → List CqlType → Option CqlType
  | "list", [element] => some (.list false element)
  | "set", [element] => some (.set false element)
  | "map", [key, value] => some (.map false key value)
  | "tuple", elements => some (.tuple elements)
  | "frozen", [t] => some (frozenType t)
  | _, _ => none

mutual

/-- The type without fields that a spelling stands for, if it is the spelling of a type. -/
def type? : Spelling → Option CqlType
  | .named name => (NativeType.ofName name).toOption.map .native
  | .dotted keyspace name => some (.udt false keyspace name [])
  | .bracketed name arguments => (types? arguments).bind (ofArguments name)
  | .verbatim className => some (.custom className)

/-- The types that arguments stand for. -/
def types? : List Spelling → Option (List CqlType)
  | [] => some []
  | argument :: rest => argument.type?.bind fun t => (types? rest).map (t :: ·)

end

end Spelling

/-- The spelling inside `frozen<...>` if the type is frozen. -/
def spellingIf (frozen : Bool) (spelling : Spelling) : Spelling :=
  if frozen then .bracketed "frozen" [spelling] else spelling

mutual

/-- The spelling of a type as a tree. -/
def spelling : CqlType → Spelling
  | .native t => .named t.cqlName
  | .list frozen element => spellingIf frozen (.bracketed "list" [element.spelling])
  | .set frozen element => spellingIf frozen (.bracketed "set" [element.spelling])
  | .map frozen key value =>
    spellingIf frozen (.bracketed "map" [key.spelling, value.spelling])
  | .udt frozen keyspace name _ => spellingIf frozen (.dotted keyspace name)
  | .tuple elements => spellingIf true (.bracketed "tuple" (spellings elements))
  | .custom className => .verbatim className

/-- The spellings of types in order. -/
def spellings : List CqlType → List Spelling
  | [] => []
  | t :: rest => t.spelling :: spellings rest

end

theorem quote_cqlName (t : NativeType) : quote t.cqlName = t.cqlName := by
  cases t <;> rfl

theorem toList_frozenIf (frozen : Bool) {text : String} {s : Spelling} (h : text.toList = s.text) :
    (frozenIf frozen text).toList = (spellingIf frozen s).text := by
  cases frozen with
  | false => exact h
  | true => simp [frozenIf, spellingIf, Spelling.text_bracketed "frozen" rfl, h]

mutual

/-- A type is printed as its spelling. -/
theorem toList_toCql : (t : CqlType) → t.toCql.toList = t.spelling.text
  | .native t => by rw [toCql, spelling, Spelling.text, quote_cqlName]
  | .list frozen element => toList_frozenIf frozen (by
      simp [Spelling.text_bracketed "list" rfl, toList_toCql element])
  | .set frozen element => toList_frozenIf frozen (by
      simp [Spelling.text_bracketed "set" rfl, toList_toCql element])
  | .map frozen key value => toList_frozenIf frozen (by
      simp [Spelling.text_bracketed "map" rfl, toList_toCql key, toList_toCql value])
  | .udt frozen keyspace name _ => toList_frozenIf frozen (by simp [Spelling.text])
  | .tuple elements => toList_frozenIf true (by
      simp [Spelling.text_bracketed "tuple" rfl, map_toList_toCqlAll elements])
  | .custom className => by simp [toCql, spelling, Spelling.text]

/-- Types are printed as their spellings. -/
theorem map_toList_toCqlAll : (types : List CqlType) →
    (toCqlAll types).map String.toList = (spellings types).map Spelling.text
  | [] => rfl
  | t :: rest => by
    rw [toCqlAll, spellings, List.map_cons, List.map_cons, toList_toCql t, map_toList_toCqlAll rest]

end

/-- A frozen type stands for the type that it freezes, frozen. -/
theorem type?_spellingIf (frozen : Bool) {s : Spelling} {t : CqlType} (h : s.type? = some t) :
    (spellingIf frozen s).type? = some (if frozen then Spelling.frozenType t else t) := by
  cases frozen with
  | false => exact h
  | true => simp [spellingIf, Spelling.type?, Spelling.types?, Spelling.ofArguments, h]

mutual

/-- The spelling of a type stands for it, except for its fields. -/
theorem type?_spelling : (t : CqlType) → t.spelling.type? = some t.withoutFields
  | .native t => by
    rw [spelling, Spelling.type?, NativeType.ofName_cqlName]
    rfl
  | .list frozen element => by
    have h : (Spelling.bracketed "list" [element.spelling]).type? =
        some (.list false element.withoutFields) := by
      simp [Spelling.type?, Spelling.types?, Spelling.ofArguments, type?_spelling element]
    rw [spelling, type?_spellingIf frozen h]
    cases frozen <;> rfl
  | .set frozen element => by
    have h : (Spelling.bracketed "set" [element.spelling]).type? =
        some (.set false element.withoutFields) := by
      simp [Spelling.type?, Spelling.types?, Spelling.ofArguments, type?_spelling element]
    rw [spelling, type?_spellingIf frozen h]
    cases frozen <;> rfl
  | .map frozen key value => by
    have h : (Spelling.bracketed "map" [key.spelling, value.spelling]).type? =
        some (.map false key.withoutFields value.withoutFields) := by
      simp [Spelling.type?, Spelling.types?, Spelling.ofArguments, type?_spelling key,
        type?_spelling value]
    rw [spelling, type?_spellingIf frozen h]
    cases frozen <;> rfl
  | .udt frozen keyspace name _ => by
    rw [spelling, type?_spellingIf frozen rfl]
    cases frozen <;> rfl
  | .tuple elements => by
    have h : (Spelling.bracketed "tuple" (spellings elements)).type? =
        some (.tuple (allWithoutFields elements)) := by
      simp [Spelling.type?, Spelling.ofArguments, types?_spellings elements]
    rw [spelling, type?_spellingIf true h]
    rfl
  | .custom className => rfl

/-- The spellings of types stand for them, except for their fields. -/
theorem types?_spellings : (types : List CqlType) →
    Spelling.types? (spellings types) = some (allWithoutFields types)
  | [] => rfl
  | t :: rest => by
    rw [spellings, Spelling.types?, type?_spelling t, types?_spellings rest]
    rfl

end

mutual

/-- Fields are not spelled. -/
theorem spelling_withoutFields : (t : CqlType) → t.withoutFields.spelling = t.spelling
  | .native _ => rfl
  | .list frozen element => by
    rw [withoutFields, spelling, spelling, spelling_withoutFields element]
  | .set frozen element => by
    rw [withoutFields, spelling, spelling, spelling_withoutFields element]
  | .map frozen key value => by
    rw [withoutFields, spelling, spelling, spelling_withoutFields key, spelling_withoutFields value]
  | .udt _ _ _ _ => rfl
  | .tuple elements => by
    rw [withoutFields, spelling, spelling, spellings_allWithoutFields elements]
  | .custom _ => rfl

/-- Fields are not spelled. -/
theorem spellings_allWithoutFields : (types : List CqlType) →
    spellings (allWithoutFields types) = spellings types
  | [] => rfl
  | t :: rest => by
    rw [allWithoutFields, spellings, spellings, spelling_withoutFields t,
      spellings_allWithoutFields rest]

end

theorem readable_spellingIf {frozen : Bool} {s : Spelling} (h : s.Readable) :
    (spellingIf frozen s).Readable := by
  cases frozen with
  | false => exact h
  | true => exact ⟨h, trivial⟩

/-- All unknown classes that the spelling of a type shows are without single quotes. -/
def HasReadableCustoms (t : CqlType) : Prop :=
  ∀ className ∈ t.withoutFields.customs, '\'' ∉ className.toList

theorem HasReadableCustoms.of_mem_parts {t part : CqlType} (h : t.HasReadableCustoms)
    (hpart : part.withoutFields ∈ t.withoutFields.parts) : part.HasReadableCustoms :=
  fun className hclass => h className (customs_subset_of_mem_parts hpart hclass)

mutual

/-- Unknown classes without single quotes make a spelling readable. -/
theorem readable_spelling : (t : CqlType) → t.HasReadableCustoms → t.spelling.Readable
  | .native _, _ => trivial
  | .list _ element, h => readable_spellingIf
      ⟨readable_spelling element (h.of_mem_parts (by simp [withoutFields, parts])), trivial⟩
  | .set _ element, h => readable_spellingIf
      ⟨readable_spelling element (h.of_mem_parts (by simp [withoutFields, parts])), trivial⟩
  | .map _ key value, h => readable_spellingIf
      ⟨readable_spelling key (h.of_mem_parts (by simp [withoutFields, parts])),
        readable_spelling value (h.of_mem_parts (by simp [withoutFields, parts])), trivial⟩
  | .udt _ _ _ _, _ => readable_spellingIf trivial
  | .tuple elements, h => readable_spellingIf (readable_spellings elements fun t ht =>
      h.of_mem_parts (by
        rw [withoutFields, allWithoutFields_eq_map]
        exact List.mem_map_of_mem ht))
  | .custom className, h => h className (by simp [withoutFields, customs, fold])

/-- Unknown classes without single quotes make spellings readable. -/
theorem readable_spellings : (types : List CqlType) →
    (∀ t ∈ types, t.HasReadableCustoms) → Spelling.AllReadable (spellings types)
  | [], _ => trivial
  | t :: rest, h => by
    rw [List.forall_mem_cons] at h
    exact ⟨readable_spelling t h.1, readable_spellings rest h.2⟩

end

/-- Types whose unknown classes have no single quote in their names are printed alike if and only
if they differ in nothing but the fields of their user-defined types. -/
theorem toCql_eq_iff {a b : CqlType} (ha : a.HasReadableCustoms) (hb : b.HasReadableCustoms) :
    a.toCql = b.toCql ↔ a.withoutFields = b.withoutFields := by
  constructor
  · intro h
    have htext : a.spelling.text ++ [] = b.spelling.text ++ [] := by
      rw [← toList_toCql, ← toList_toCql, h]
    have hspelling : a.spelling = b.spelling := (Spelling.text_append_inj a.spelling
      (readable_spelling a ha) (readable_spelling b hb) (by simp [Spelling.EndsType])
      (by simp [Spelling.EndsType]) htext).1
    exact Option.some.inj (by rw [← type?_spelling, ← type?_spelling, hspelling])
  · intro h
    apply String.toList_injective
    rw [toList_toCql, toList_toCql, ← spelling_withoutFields a, ← spelling_withoutFields b, h]

/-- The keyspace of one of the two types is a keyword, its name holds the characters between
arguments, and it differs from the other one in its fields. -/
theorem toCql_eq_iff_keyword :
    (map true (custom "Key, type") (udt true "frozen" "a>, b" [("x", custom "don't")])).toCql =
      "frozen<map<'Key, type', frozen<frozen.\"a>, b\">>>" ∧
    ((map true (custom "Key, type") (udt true "frozen" "a>, b" [("x", custom "don't")])).toCql =
        (map true (custom "Key, type") (udt true "frozen" "a>, b" [])).toCql ↔
      (map true (custom "Key, type")
          (udt true "frozen" "a>, b" [("x", custom "don't")])).withoutFields =
        (map true (custom "Key, type") (udt true "frozen" "a>, b" [])).withoutFields) :=
  ⟨by decide, toCql_eq_iff (by unfold HasReadableCustoms; decide)
    (by unfold HasReadableCustoms; decide)⟩

end SchemaTypes.CqlType
