import SchemaTypes.Proofs.ClassName.FirstGroup
import SchemaTypes.Proofs.CqlType.Kinds

/-!
# Types that are read from one group

Wrappers, collections, user-defined types and tuples take arguments, which are read from the group
behind the name. Native and unknown classes take none: they are told by their names, and what
stands behind the name is not looked at.

## Main definitions

* `Head.takesArguments`, `TakesArguments`: class names of classes that take arguments.
* `CqlType.ToldByName`: the type of a class that takes none.

## Main results

* `readByGroup_of_takesArguments`: with arguments, a type is read from one group.
* `exists_toldByName`: without arguments, a type is told by its name.
-/

namespace SchemaTypes

namespace ClassName

/-- Whether a class with such a name takes arguments. -/
def Head.takesArguments : Head → Bool
  | .collection _ | .userType | .tuple => true
  | .native _ | .unknown => false

/-- The class takes arguments: the text starts with a wrapper, or its name with the class of a
collection, a user-defined type or a tuple. -/
def TakesArguments (className : List Char) : Prop :=
  (∃ word ∈ structuredClasses.take 2, word <+: className) ∨
    ∃ word ∈ structuredClasses.drop 2, word <+: leadingName className

variable {className other : List Char}

/-- A class that takes arguments is announced by how its name starts. -/
theorem Head.takesArguments_ofName_iff {name : List Char} :
    (Head.ofName name).takesArguments = true ↔
      ∃ word ∈ structuredClasses.drop 2, word <+: name := by
  simp only [structuredClasses, List.drop_succ_cons, List.drop_zero, List.exists_mem_cons_iff,
    List.not_mem_nil, false_and, exists_false, or_false, ← List.isPrefixOf_iff_prefix]
  grind [ofName, takesArguments, ClassName.isCollection, isUserType, isTuple]

/-- A class takes arguments if it is a wrapper or its name announces that it does. -/
theorem takesArguments_iff : TakesArguments className ↔
    ¬ IsBare className ∨ (Head.ofName (leadingName className)).takesArguments = true := by
  simp only [TakesArguments, isBare_iff, Head.takesArguments_ofName_iff, not_forall, not_not,
    exists_prop]

theorem StartsLike.isReversed_eq (h : StartsLike className other) :
    isReversed className = isReversed other :=
  h.isPrefixOf_eq isName_reversedClass

theorem StartsLike.isFrozen_eq (h : StartsLike className other) :
    isFrozen className = isFrozen other :=
  h.isPrefixOf_eq isName_frozenClass

theorem StartsLike.isBare_iff (h : StartsLike className other) :
    IsBare className ↔ IsBare other := by
  rw [IsBare, IsBare, h.isReversed_eq, h.isFrozen_eq]

theorem StartsLike.leadingName_eq (h : StartsLike className other) :
    leadingName className = leadingName other := by
  rw [← Place.name_start, ← Place.name_start, h.name_eq]

/-- Class names that start alike are of the same kind. -/
theorem StartsLike.takesArguments_iff (h : StartsLike className other) :
    TakesArguments className ↔ TakesArguments other := by
  rw [ClassName.takesArguments_iff, ClassName.takesArguments_iff, h.isBare_iff, h.leadingName_eq]

end ClassName

namespace CqlType

open ClassName Layer

variable {decoder : Decoder} {sink : Sink} {className other : List Char}

/-- The arguments of a class are read by one scan, and nothing else counts. -/
theorem Layer.exists_scan_of_ofArguments {frozen : Bool} {p : Place} {head : Head}
    {layer : Layer (List Char)} (hhead : head.takesArguments = true)
    (h : ofArguments decoder frozen className p head = .ok layer) :
    ∃ (α : Type) (scan : Scan α) (a : α), scan.ReadsGroup ∧ (∃ q, scan p = .ok a q) ∧
      ∀ (other : List Char) (p' : Place), (∃ q, scan p' = .ok a q) →
        ofArguments decoder frozen other p' head = .ok layer := by
  cases head with
  | collection kind =>
    simp only [ofArguments] at h ⊢
    split at h
    · cases h
    · next units q hunits =>
      refine ⟨_, _, units, Scan.readsGroup_expectArguments _ _, ⟨q, hunits⟩, ?_⟩
      rintro other p' ⟨q', hunits'⟩
      rw [hunits']
      exact h
  | userType =>
    simp only [ofArguments] at h ⊢
    split at h
    · cases h
    · next t q ht =>
      refine ⟨_, _, t, Scan.readsGroup_userType decoder, ⟨q, ht⟩, ?_⟩
      rintro other p' ⟨q', ht'⟩
      rw [ht']
      exact h
  | tuple =>
    simp only [ofArguments] at h ⊢
    split at h
    · cases h
    · next units q hunits =>
      refine ⟨_, _, units, Scan.readsGroup_arguments, ⟨q, hunits⟩, ?_⟩
      rintro other p' ⟨q', hunits'⟩
      rw [hunits']
      exact h
  | native | unknown => cases hhead

/-- The argument of a wrapper is read from one group. -/
theorem Layer.exists_scan_of_soleArgument {inner : List Char}
    (h : soleArgument className = .ok inner) :
    ∃ (α : Type) (scan : Scan α) (a : α), scan.ReadsGroup ∧
      (∃ q, scan (Place.behindName className) = .ok a q) ∧
      ∀ other, (∃ q, scan (Place.behindName other) = .ok a q) → soleArgument other = .ok inner := by
  rw [soleArgument] at h
  split at h
  · cases h
  · next units q hunits =>
    refine ⟨_, _, units, Scan.readsGroup_expectArguments _ _, ⟨q, hunits⟩, ?_⟩
    rintro other ⟨q', hunits'⟩
    rw [soleArgument, hunits']
    exact h

/-- A type of a class that takes arguments is read from one group. -/
theorem readByGroup_of_takesArguments (hsink : sink.Accepts) {t : CqlType}
    (htakes : TakesArguments className) (h : (ofChars decoder sink className).outcome = .ok t) :
    ReadByGroup (fun className => (ofChars decoder sink className).outcome) className t := by
  by_cases hbare : IsBare className
  · -- Without a wrapper, the arguments of the class are the group.
    have hhead := (takesArguments_iff.1 htakes).resolve_left (not_not.2 hbare)
    rw [← Place.name_start] at hhead
    rw [ofChars_of_unwrap (unwrap_of_isBare hbare)] at h
    obtain ⟨layer, types, hlayer, htypes, rfl⟩ := exists_of_ofUnwrapped h
    obtain ⟨α, scan, a, hscan, hread, hsame⟩ := Layer.exists_scan_of_ofArguments hhead hlayer
    refine ⟨α, scan, a, hscan, hread, fun other hlike hother => ?_⟩
    have hunwrap := unwrap_of_isBare (hlike.isBare_iff.1 hbare)
    have hlayer' : (Layer.ofClassName decoder sink other).outcome = .ok layer := by
      rw [Layer.ofClassName, hunwrap]
      refine (outcome_ofUnwrapped hsink .none other).trans ?_
      rw [← hlike.name_eq]
      exact hsame other _ hother
    exact (outcome_ofChars hlayer').trans (congrArg (Except.map ofLayer) htypes)
  · -- With a wrapper, its argument is the group, and nothing but this argument is read on.
    obtain ⟨inner, hsole, ht⟩ := exists_soleArgument_of_not_isBare hbare h
    obtain ⟨α, scan, a, hscan, hread, hsame⟩ := Layer.exists_scan_of_soleArgument hsole
    refine ⟨α, scan, a, hscan, hread, fun other hlike hother => ?_⟩
    have hunwrap := unwrap_of_not_isBare (mt hlike.isBare_iff.2 hbare)
    rw [hsame other hother, ← hlike.isReversed_eq] at hunwrap
    exact (congrArg Reading.outcome (ofChars_of_unwrap hunwrap)).trans ht

/-- A native class without a wrapper is known by its name, whatever follows. -/
theorem outcome_ofChars_of_native (hsink : sink.Accepts) (hbare : IsBare className)
    {n : NativeType} (hhead : Head.ofName (Place.start className).skipBlanks.name = .native n) :
    (ofChars decoder sink className).outcome = .ok (.native n) := by
  rw [ofChars_of_unwrap (unwrap_of_isBare hbare)]
  exact outcome_ofUnwrapped_of_native hsink hhead

/-- The type is told by the name at the front of the class name: it is the native type whose class
has this name or, if there is none, the class name is kept as it is written. -/
def ToldByName (className : List Char) (t : CqlType) : Prop :=
  (∃ n, leadingName className = nativeClass n ∧ t = .native n) ∨
    (∀ n, leadingName className ≠ nativeClass n) ∧ t = .custom (String.ofList className)

/-- A class name tells no two types. -/
theorem ToldByName.unique {t t' : CqlType} (h : ToldByName className t)
    (h' : ToldByName className t') : t = t' := by
  rcases h with ⟨n, hn, rfl⟩ | ⟨hnone, rfl⟩ <;> rcases h' with ⟨n', hn', rfl⟩ | ⟨hnone', rfl⟩
  · rw [← native?_eq_some_iff] at hn hn'
    rw [Option.some.inj (hn.symm.trans hn')]
  · exact absurd hn (hnone' n)
  · exact absurd hn' (hnone n')
  · rfl

/-- A class whose name starts with no word of a class with arguments is told by its name. -/
theorem exists_toldByName (hsink : sink.Accepts)
    (hname : ∀ word ∈ structuredClasses, ¬ word <+: leadingName className) :
    ∃ t, ToldByName className t ∧ (ofChars decoder sink className).outcome = .ok t := by
  have hbare : IsBare className := isBare_iff.2 fun word hword hprefix => by
    -- A wrapper at the front of the text would be at the front of the name.
    obtain ⟨hisName, hne⟩ := isName_wrapper hword
    exact hname word (List.mem_of_mem_take hword) (isPrefix_leadingName hisName hne hprefix)
  by_cases hnative : ∃ n, leadingName className = nativeClass n
  · obtain ⟨n, hn⟩ := hnative
    refine ⟨.native n, .inl ⟨n, hn, rfl⟩, outcome_ofChars_of_native hsink hbare ?_⟩
    rw [Place.name_start, hn, Head.ofName_nativeClass]
  · have hnone := not_exists.1 hnative
    refine ⟨_, .inr ⟨hnone, rfl⟩, congrArg Reading.outcome (ofChars_of_unknown hbare ?_)⟩
    rw [Place.name_start, Head.ofName_of_unknown hname hnone]

end CqlType

end SchemaTypes
