import SchemaTypes.Proofs.ClassName.Recognition

/-!
# The name at the front of a class name

What a class name spells is told by the name at its front, behind blanks. The name ends where the
identifier characters end, so that the text behind it can be exchanged for another one and the
name stays.

## Main definitions

* `leadingName`: the name at the front of a class name.

## Main results

* `Place.exists_start`, `Place.start_of_append`: the blanks, the name and what stands behind it.
* `Place.start_word`: a word at the front, and the name that goes on from it.
* `isPrefixOf_name`: a word is looked for in the name or in the whole text alike.
* `isPrefixOf_leadingName`, `isPrefix_leadingName`: the words at the front of the name are those
  behind the blanks of the text.
* `isPrefixOf_append_eq_false`: what starts with one word does not start with another one.
* `ofName_tupleClass_append`, `ofName_wrapper_append`: what names that start like those of a tuple
  and of a wrapper announce.
-/

namespace SchemaTypes.ClassName

namespace Place

/-- Behind the blanks at the front of a class name stands its name. -/
theorem start_of_append {blanks name tail : List Char} (hblanks : IsBlanks blanks)
    (hname : Longest IsName name tail) (hhead : ∀ c ∈ (name ++ tail).head?, isBlank c = false) :
    (start (blanks ++ (name ++ tail))).skipBlanks.name = name ∧
      (start (blanks ++ (name ++ tail))).skipBlanks.afterName.unread = tail := by
  have hunread : (start (blanks ++ (name ++ tail))).unread = blanks ++ (name ++ tail) := rfl
  have hskip := skipBlanks_of_append hunread hblanks hhead
  have hbehind := unread_advance_of_append hunread
  rw [← hskip] at hbehind
  obtain ⟨hnameOf, hafter⟩ := afterName_of_append hbehind hname
  refine ⟨hnameOf, ?_⟩
  rw [hafter]
  exact unread_advance_of_append hbehind

/-- A class name consists of blanks, its name and what stands behind the name. -/
theorem exists_start (className : List Char) :
    ∃ blanks, IsBlanks blanks ∧ className = blanks ++
      ((start className).skipBlanks.name ++ (start className).skipBlanks.afterName.unread) := by
  obtain ⟨blanks, hunread, hblanks, -⟩ := (start className).exists_skipBlanks
  refine ⟨blanks, hblanks, ?_⟩
  rwa [name_append_unread]

/-- A word at the front of a class name starts its name. -/
theorem start_word {word : List Char} (hword : IsName word) (hne : word ≠ []) (s : List Char) :
    (start (word ++ s)).skipBlanks.name = word ++ s.takeWhile isIdentifierChar ∧
      (start (word ++ s)).skipBlanks.afterName.unread = s.dropWhile isIdentifierChar := by
  have htext : word ++ s =
      [] ++ ((word ++ s.takeWhile isIdentifierChar) ++ s.dropWhile isIdentifierChar) := by
    rw [List.nil_append, List.append_assoc, List.takeWhile_append_dropWhile]
  rw [htext]
  -- The word is not empty, so that the name starts at once and ends where its characters do.
  refine start_of_append (by simp [IsBlanks])
    (longest_isName_iff.2 ⟨?_, Text.head_dropWhile isIdentifierChar s⟩) ?_
  · rw [IsName, List.forall_mem_append]
    exact ⟨hword, List.all_eq_true.1 List.all_takeWhile⟩
  · obtain ⟨c, word, rfl⟩ := List.exists_cons_of_ne_nil hne
    rintro _ ⟨⟩
    exact isBlank_eq_false_of_isIdentifierChar (hword c (.head _))

/-- A name with no blank in front is read at once, and the place behind it is as far as it is
long. -/
theorem start_name {name tail : List Char} (hname : IsName name) (hne : name ≠ [])
    (htail : ∀ c ∈ tail.head?, isIdentifierChar c = false) :
    (start (name ++ tail)).skipBlanks.name = name ∧
      (start (name ++ tail)).skipBlanks.afterName = ⟨name ++ tail, name.length⟩ := by
  have hskip : (start (name ++ tail)).skipBlanks = start (name ++ tail) := by
    refine skipBlanks_eq_self ?_
    obtain ⟨c, name, rfl⟩ := List.exists_cons_of_ne_nil hne
    rintro _ ⟨⟩
    exact isBlank_eq_false_of_isIdentifierChar (hname c (.head _))
  have hunread : (start (name ++ tail)).unread = name ++ tail := rfl
  obtain ⟨hnameOf, hafter⟩ :=
    afterName_of_append hunread (longest_isName_iff.2 ⟨hname, htail⟩)
  rw [hskip]
  refine ⟨hnameOf, ?_⟩
  rw [hafter, start, advance, Nat.zero_add]

theorem unread_mk (name tail : List Char) : unread ⟨name ++ tail, name.length⟩ = tail :=
  List.drop_left

end Place

/-- A word is looked for in the name at a place or in the whole text alike. -/
theorem isPrefixOf_name {word : List Char} (hword : IsName word) (p : Place) :
    word.isPrefixOf p.name = word.isPrefixOf p.unread := by
  rw [← p.name_append_unread]
  exact (isPrefixOf_append hword (longest_isName_iff.1 p.longest_name).2).symm

/-- Where a text starts with a word, no blank stands in front of it. -/
theorem dropWhile_isBlank_of_isPrefixOf {word text : List Char} (hword : IsName word)
    (hne : word ≠ []) (h : word.isPrefixOf text = true) : text.dropWhile isBlank = text := by
  obtain ⟨rest, rfl⟩ := List.isPrefixOf_iff_prefix.1 h
  obtain ⟨c, word, rfl⟩ := List.exists_cons_of_ne_nil hne
  have hblank := isBlank_eq_false_of_isIdentifierChar (hword c (.head _))
  rw [List.cons_append, List.dropWhile_cons_of_neg (by simp [hblank])]

/-- The name at the front of a class name: the identifier characters behind the blanks. -/
def leadingName (className : List Char) : List Char :=
  (className.dropWhile isBlank).takeWhile isIdentifierChar

theorem Place.name_start (className : List Char) :
    (start className).skipBlanks.name = leadingName className := by
  rw [name, unread_skipBlanks, unread_start, leadingName]

/-- A word is at the front of the name if it is at the front of the text behind the blanks. -/
theorem isPrefixOf_leadingName {word : List Char} (hword : IsName word) (className : List Char) :
    word.isPrefixOf (leadingName className) = word.isPrefixOf (className.dropWhile isBlank) := by
  rw [← Place.name_start, isPrefixOf_name hword, Place.unread_skipBlanks, Place.unread_start]

/-- A word at the front of a class name is at the front of its name. -/
theorem isPrefix_leadingName {word className : List Char} (hword : IsName word) (hne : word ≠ [])
    (h : word <+: className) : word <+: leadingName className := by
  rw [← List.isPrefixOf_iff_prefix] at h ⊢
  rw [isPrefixOf_leadingName hword, dropWhile_isBlank_of_isPrefixOf hword hne h, h]

/-- No word starts a text with a blank in front. -/
theorem isPrefixOf_cons_eq_false {word : List Char} (hword : IsName word) (hne : word ≠ [])
    {c : Char} (hblank : isBlank c = true) (text : List Char) :
    word.isPrefixOf (c :: text) = false := by
  by_contra hprefix
  -- With the blank passed, the text would be shorter than itself.
  have hsame := dropWhile_isBlank_of_isPrefixOf hword hne (by simpa using hprefix)
  rw [List.dropWhile_cons_of_pos hblank] at hsame
  have hlength := (List.dropWhile_sublist isBlank (l := text)).length_le
  rw [hsame, List.length_cons] at hlength
  omega

/-- What starts with one word does not start with another one, if neither word goes on with the
other. -/
theorem isPrefixOf_append_eq_false {word other : List Char} (hword : word.isPrefixOf other = false)
    (hother : other.isPrefixOf word = false) (rest : List Char) :
    word.isPrefixOf (other ++ rest) = false := by
  rw [Bool.eq_false_iff, Ne, List.isPrefixOf_iff_prefix] at hword hother ⊢
  intro h
  -- Of two words at the front of one text, one goes on with the other.
  rcases List.prefix_or_prefix_of_prefix h (List.prefix_append other rest) with h | h
  · exact hword h
  · exact hother h

theorem isName_wrapper {wrapper : List Char} (h : wrapper ∈ [reversedClass, frozenClass]) :
    IsName wrapper ∧ wrapper ≠ [] := by
  rcases List.mem_pair.1 h with rfl | rfl
  · exact ⟨isName_reversedClass, inPackage_ne_nil _⟩
  · exact ⟨isName_frozenClass, inPackage_ne_nil _⟩

theorem isPrefixOf_append_self (word rest : List Char) : word.isPrefixOf (word ++ rest) = true :=
  List.isPrefixOf_iff_prefix.2 (List.prefix_append word rest)

/-- None of the words that are looked for at the front of a class name starts another, so that at
most one of them is found. -/
theorem isPrefixOf_word_append {word other : List Char}
    (hword : word ∈ compositeClass :: structuredClasses)
    (hother : other ∈ compositeClass :: structuredClasses) (hne : word ≠ other)
    (rest : List Char) : word.isPrefixOf (other ++ rest) = false := by
  have hwords : ∀ word ∈ compositeClass :: structuredClasses,
      ∀ other ∈ compositeClass :: structuredClasses,
        word ≠ other → word.isPrefixOf other = false := by
    decide +kernel
  exact isPrefixOf_append_eq_false (hwords word hword other hother hne)
    (hwords other hother word hword hne.symm) rest

/-- A name that starts like that of a tuple has no wrapper and announces a tuple. -/
theorem ofName_tupleClass_append (rest : List Char) :
    IsBare (tupleClass ++ rest) ∧ Head.ofName (tupleClass ++ rest) = .tuple := by
  have hne : ∀ word ∈ structuredClasses.dropLast, word ≠ tupleClass := by
    decide +kernel
  have hword : ∀ word ∈ structuredClasses.dropLast,
      word.isPrefixOf (tupleClass ++ rest) = false := fun word hmem =>
    isPrefixOf_word_append (.tail _ (List.dropLast_subset _ hmem)) (by simp [structuredClasses])
      (hne word hmem) rest
  have htuple := isPrefixOf_append_self tupleClass rest
  simp only [structuredClasses, List.dropLast_cons_cons, List.dropLast_singleton,
    List.forall_mem_cons] at hword
  -- The wrappers, the collections and user-defined types are asked for before tuples.
  obtain ⟨hreversed, hfrozen, hlist, hset, hmap, huser, -⟩ := hword
  refine ⟨⟨hreversed, hfrozen⟩, ?_⟩
  simp only [Head.ofName, ClassName.isCollection, isUserType, isTuple, hlist, hset, hmap, huser,
    htuple, Bool.false_eq_true, if_false, if_true]

/-- What starts like a wrapper announces no type. -/
theorem ofName_wrapper_append {wrapper : List Char}
    (hwrapper : wrapper ∈ [reversedClass, frozenClass]) (rest : List Char) :
    Head.ofName (wrapper ++ rest) = .unknown := by
  have hmem : wrapper ∈ structuredClasses := List.mem_of_mem_take (i := 2) hwrapper
  have hne : ∀ wrapper ∈ [reversedClass, frozenClass], ∀ word ∈ structuredClasses.drop 2,
      word ≠ wrapper := by
    decide +kernel
  have hnative : ∀ wrapper ∈ [reversedClass, frozenClass], ∀ t ∈ NativeType.all,
      wrapper.isPrefixOf (nativeClass t) = false := by
    decide +kernel
  refine Head.ofName_of_isPrefixOf_eq_false (fun word hword => ?_) fun t heq => ?_
  · exact isPrefixOf_word_append (.tail _ (List.mem_of_mem_drop hword)) (.tail _ hmem)
      (hne wrapper hwrapper word hword) rest
  · have hstart := isPrefixOf_append_self wrapper rest
    rw [heq, hnative wrapper hwrapper t t.mem_all] at hstart
    exact Bool.false_ne_true hstart

end SchemaTypes.ClassName
