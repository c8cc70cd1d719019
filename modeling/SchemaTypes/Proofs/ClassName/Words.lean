import SchemaTypes.ClassName.Vocabulary
import SchemaTypes.Proofs.ClassName.Units

/-!
# Words of the vocabulary

The words are runs of identifier characters, so that whether a text starts with a word is settled
by the name at its front: the group behind the name does not count.

## Main definitions

* `structuredClasses`: the words that are recognised at the start of a name.

## Main results

* `isPrefixOf_append`: a word stands at the front of a text if it stands at the front of its name.
* `Head.ofName_className`: what the names of collections announce.
* `Head.ofName_eq_native_iff`, `Head.ofName_eq_unknown_iff`: the names that announce a native class
  and an unknown one.
-/

namespace SchemaTypes.ClassName

/-- The wrappers and the classes with arguments, which are recognised at the start of a name. -/
def structuredClasses : List (List Char) :=
  [reversedClass, frozenClass, CollectionKind.list.className, CollectionKind.set.className,
    CollectionKind.map.className, userTypeClass, tupleClass]

instance (name : List Char) : Decidable (IsName name) :=
  decidable_of_iff (name.all isIdentifierChar = true) List.all_eq_true

theorem inPackage_ne_nil (simpleName : String) : inPackage simpleName ≠ [] :=
  List.append_ne_nil_of_left_ne_nil (by decide +kernel) _

/-- Each word is a run of identifier characters. -/
theorem isName_words :
    (IsName reversedClass ∧ IsName frozenClass ∧ IsName compositeClass ∧
      IsName dynamicColumnsClass ∧ IsName userTypeClass ∧ IsName tupleClass) ∧
    (∀ kind ∈ [CollectionKind.list, .set, .map], IsName kind.className) ∧
    ∀ t ∈ NativeType.all, IsName (nativeClass t) := by
  decide +kernel

theorem isName_reversedClass : IsName reversedClass := isName_words.1.1

theorem isName_frozenClass : IsName frozenClass := isName_words.1.2.1

theorem isName_compositeClass : IsName compositeClass := isName_words.1.2.2.1

theorem isName_dynamicColumnsClass : IsName dynamicColumnsClass := isName_words.1.2.2.2.1

theorem isName_userTypeClass : IsName userTypeClass := isName_words.1.2.2.2.2.1

theorem isName_tupleClass : IsName tupleClass := isName_words.1.2.2.2.2.2

theorem isName_className (kind : CollectionKind) : IsName kind.className :=
  isName_words.2.1 kind (by cases kind <;> simp)

theorem isName_nativeClass (t : NativeType) : IsName (nativeClass t) :=
  isName_words.2.2 t t.mem_all

/-- A word stands at the front of a text if it stands at the front of the name there. -/
theorem isPrefixOf_append {word name rest : List Char} (hword : IsName word)
    (hrest : ∀ c ∈ rest.head?, isIdentifierChar c = false) :
    word.isPrefixOf (name ++ rest) = word.isPrefixOf name := by
  rw [Bool.eq_iff_iff, List.isPrefixOf_iff_prefix, List.isPrefixOf_iff_prefix]
  refine ⟨fun h => ?_, fun h => h.trans (List.prefix_append _ _)⟩
  rcases List.prefix_or_prefix_of_prefix h (List.prefix_append name rest) with h' | ⟨more, rfl⟩
  · exact h'
  -- A word that is longer than the name would go on with the character behind the name.
  · cases more with
    | nil => rw [List.append_nil]
    | cons c more =>
      obtain ⟨left, rfl⟩ := (List.prefix_append_right_inj name).1 h
      have hc := hword c (List.mem_append_right _ (.head _))
      simp [hrest c rfl] at hc

theorem isReversed_append {name rest : List Char}
    (hrest : ∀ c ∈ rest.head?, isIdentifierChar c = false) :
    isReversed (name ++ rest) = isReversed name :=
  isPrefixOf_append isName_reversedClass hrest

theorem isFrozen_append {name rest : List Char}
    (hrest : ∀ c ∈ rest.head?, isIdentifierChar c = false) :
    isFrozen (name ++ rest) = isFrozen name :=
  isPrefixOf_append isName_frozenClass hrest

theorem isDynamicColumns_append {name rest : List Char}
    (hrest : ∀ c ∈ rest.head?, isIdentifierChar c = false) :
    isDynamicColumns (name ++ rest) = isDynamicColumns name :=
  isPrefixOf_append isName_dynamicColumnsClass hrest

/-- Each word announces what it is the class of. -/
theorem Head.ofName_words :
    (Head.ofName userTypeClass = .userType ∧ Head.ofName tupleClass = .tuple) ∧
    (∀ kind ∈ [CollectionKind.list, .set, .map], Head.ofName kind.className = .collection kind) ∧
    ∀ t ∈ NativeType.all, Head.ofName (nativeClass t) = .native t := by
  decide +kernel

theorem Head.ofName_userTypeClass : Head.ofName userTypeClass = .userType := ofName_words.1.1

theorem Head.ofName_tupleClass : Head.ofName tupleClass = .tuple := ofName_words.1.2

theorem Head.ofName_className (kind : CollectionKind) :
    Head.ofName kind.className = .collection kind :=
  ofName_words.2.1 kind (by cases kind <;> simp)

theorem Head.ofName_nativeClass (t : NativeType) : Head.ofName (nativeClass t) = .native t :=
  ofName_words.2.2 t t.mem_all

/-- What starts with no word is recognised as none of them. -/
theorem isPrefixOf_eq_false {name : List Char} (h : ∀ word ∈ structuredClasses, ¬ word <+: name)
    {word : List Char} (hword : word ∈ structuredClasses) : word.isPrefixOf name = false := by
  rw [Bool.eq_false_iff, Ne, List.isPrefixOf_iff_prefix]
  exact h word hword

/-- A native class is found under its own name and under no other. -/
theorem native?_eq_some_iff {name : List Char} {t : NativeType} :
    native? name = some t ↔ name = nativeClass t := by
  constructor
  · intro h
    simpa using List.find?_some h
  · rintro rfl
    -- The name announces its native type, so that this is the type that is found.
    have hself := Head.ofName_nativeClass t
    grind [Head.ofName]

theorem native?_eq_none_iff {name : List Char} :
    native? name = none ↔ ∀ t, name ≠ nativeClass t := by
  simp only [Option.eq_none_iff_forall_ne_some, Ne, native?_eq_some_iff]

/-- A native class is announced by its own name, letter by letter. -/
theorem Head.ofName_eq_native_iff {name : List Char} {t : NativeType} :
    Head.ofName name = .native t ↔ name = nativeClass t := by
  refine ⟨fun h => ?_, fun h => h ▸ ofName_nativeClass t⟩
  grind [ofName, native?_eq_some_iff]

/-- An unknown class is announced by the names that start with no word of a class with arguments
and are not the name of a native class. -/
theorem Head.ofName_eq_unknown_iff {name : List Char} :
    Head.ofName name = .unknown ↔ (∀ t, name ≠ nativeClass t) ∧
      (∀ kind : CollectionKind, ¬ kind.className <+: name) ∧ ¬ userTypeClass <+: name ∧
        ¬ tupleClass <+: name := by
  have hkinds : (∀ kind : CollectionKind, ¬ kind.className <+: name) ↔
      ¬ CollectionKind.list.className <+: name ∧ ¬ CollectionKind.set.className <+: name ∧
        ¬ CollectionKind.map.className <+: name := by
    refine ⟨fun h => ⟨h .list, h .set, h .map⟩, ?_⟩
    rintro ⟨hlist, hset, hmap⟩ (_ | _ | _)
    exacts [hlist, hset, hmap]
  rw [hkinds, ← native?_eq_none_iff]
  -- The words are asked for in turn, and the native classes only behind them.
  simp only [ofName, ClassName.isCollection, isUserType, isTuple, List.isPrefixOf_iff_prefix]
  grind

/-- A name that starts with no word of a class with arguments and is no native class announces an
unknown class. -/
theorem Head.ofName_of_isPrefixOf_eq_false {name : List Char}
    (hword : ∀ word ∈ structuredClasses.drop 2, word.isPrefixOf name = false)
    (hnative : ∀ t, name ≠ nativeClass t) : Head.ofName name = .unknown := by
  simp only [structuredClasses, List.drop_succ_cons, List.drop_zero, List.forall_mem_cons,
    Bool.eq_false_iff, Ne, List.isPrefixOf_iff_prefix] at hword
  obtain ⟨hlist, hset, hmap, huser, htuple, -⟩ := hword
  refine ofName_eq_unknown_iff.2 ⟨hnative, ?_, huser, htuple⟩
  rintro (_ | _ | _)
  exacts [hlist, hset, hmap]

/-- A name that starts with no word and is no native class announces an unknown class. -/
theorem Head.ofName_of_unknown {name : List Char}
    (hstart : ∀ word ∈ structuredClasses, ¬ word <+: name) (hnative : ∀ t, name ≠ nativeClass t) :
    Head.ofName name = .unknown :=
  ofName_of_isPrefixOf_eq_false
    (fun _ hmem => isPrefixOf_eq_false hstart (List.mem_of_mem_drop hmem)) hnative

/-- The name starts with neither wrapper. -/
def IsBare (name : List Char) : Prop := isReversed name = false ∧ isFrozen name = false

theorem isBare_of_mem {name : List Char}
    (h : name ∈ structuredClasses.drop 2 ++ NativeType.all.map nativeClass) : IsBare name := by
  revert name
  unfold IsBare
  decide +kernel

theorem isBare_iff {name : List Char} :
    IsBare name ↔ ∀ word ∈ structuredClasses.take 2, ¬ word <+: name := by
  simp [IsBare, isReversed, isFrozen, structuredClasses, ← List.isPrefixOf_iff_prefix]

theorem isBare_of_unknown {name : List Char} (h : ∀ word ∈ structuredClasses, ¬ word <+: name) :
    IsBare name :=
  isBare_iff.2 fun word hword => h word (List.mem_of_mem_take hword)

end SchemaTypes.ClassName
