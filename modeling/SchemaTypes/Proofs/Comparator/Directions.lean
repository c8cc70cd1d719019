import SchemaTypes.Proofs.ClassName.LeadingName
import SchemaTypes.Proofs.CqlType.OuterBlanks
import SchemaTypes.Proofs.Comparator.Components

/-!
# The direction of a component and its type

A component that is reversed has the type of the class name inside the wrapper that reverses. In a
composite both are told by the text of the unit. On its own a class name is reversed if its name
is, behind the blanks at its front, while the wrapper is looked for in the text with the blanks.
So with blanks in front of the wrapper the class name is reversed, and kept as an unknown class.

## Main definitions

* `AgreesWith`: a component whose direction fits its type.
* `HidesReversal`: class names with blanks in front of the wrapper that reverses.

## Main results

* `IsComponentOf.agreesWith`: direction and type fit if the text tells both.
* `ofClassName_agreesWith_iff`: the comparators in which directions and types fit.
-/

namespace SchemaTypes

namespace Comparator

open ClassName CqlType Layer

variable {decoder : Decoder} {sink : Sink}

/-- The direction of a component fits its type: it is reversed if the class name has the wrapper
that reverses, and then its type is read from the argument of the wrapper. -/
structure AgreesWith (decoder : Decoder) (sink : Sink) (className : List Char)
    (component : Component) : Prop where
  /-- The component is reversed if the wrapper is found. -/
  reversed_eq : component.reversed = isReversed className
  /-- The type of a reversed component is that of the class name inside the wrapper. -/
  exists_soleArgument : component.reversed = true →
    ∃ inner, soleArgument className = .ok inner ∧
      (CqlType.ofUnwrapped decoder sink .reversed inner).outcome = .ok component.type
  /-- A reversed component is not kept with its wrapper. -/
  ne_custom : component.reversed = true → component.type ≠ .custom (String.ofList className)

/-- Direction and type fit if the same text tells both. -/
theorem IsComponentOf.agreesWith {className : List Char} {component : Component}
    (h : IsComponentOf decoder sink className component) :
    AgreesWith decoder sink className component := by
  have hinner (hcomponent : component.reversed = true) : ∃ inner,
      soleArgument className = .ok inner ∧
        (CqlType.ofUnwrapped decoder sink .reversed inner).outcome = .ok component.type := by
    have hreversed : isReversed className = true := h.reversed_eq ▸ hcomponent
    have hread := exists_soleArgument_of_not_isBare (by simp [IsBare, hreversed]) h.type_eq
    rwa [if_pos hreversed] at hread
  refine ⟨h.reversed_eq, hinner, fun hreversed hcustom => ?_⟩
  obtain ⟨inner, hsole, htype⟩ := hinner hreversed
  rw [hcustom] at htype
  have hsame := String.ofList_injective (eq_ofList_of_ofUnwrapped htype)
  exact absurd (length_lt_of_soleArgument hsole) (hsame ▸ Nat.lt_irrefl _)

/-- The class names that the components of a comparator are read from: the units of a composite in
front of its block, or the class name itself. -/
def sources (className : List Char) : List (List Char) :=
  let start := (Place.start className).skipBlanks
  if ClassName.isComposite start.name then
    match Scan.arguments start.afterName with
    | .error _ _ => []
    | .ok units _ => componentUnits units
  else [className]

/-- Blanks stand in front of the wrapper that reverses. -/
def HidesReversal (className : List Char) : Prop :=
  isReversed className = false ∧ isReversed (className.dropWhile isBlank) = true

/-- The name of a class is reversed if the wrapper stands at its front or behind blanks. -/
theorem isReversed_name (className : List Char) :
    isReversed (Place.start className).skipBlanks.name =
      isReversed (className.dropWhile isBlank) := by
  rw [Place.name_start]
  exact isPrefixOf_leadingName isName_reversedClass className

/-- The direction of a class name on its own is told by the text, unless blanks stand in front of
the wrapper that reverses. -/
theorem isReversed_name_eq_iff (className : List Char) :
    isReversed (Place.start className).skipBlanks.name = isReversed className ↔
      ¬ HidesReversal className := by
  rw [isReversed_name]
  cases hreversed : isReversed className with
  | true =>
    have hsame := dropWhile_isBlank_of_isPrefixOf isName_reversedClass (inPackage_ne_nil _)
      hreversed
    simp [HidesReversal, hsame, hreversed]
  | false => simp [HidesReversal, hreversed]

/-- A class name with blanks in front of the wrapper that reverses is kept as an unknown class. -/
theorem HidesReversal.ofChars_eq {className : List Char} (h : HidesReversal className) :
    CqlType.ofChars decoder sink className =
      ⟨[.keptVerbatim (String.ofList className)], .ok (.custom (String.ofList className))⟩ := by
  obtain ⟨hreversed, hbehind⟩ := h
  -- No blanks stand in front of the wrapper that freezes, if it is found at the front.
  have hfrozen : isFrozen className = false := by
    by_contra hfrozen
    rw [Bool.not_eq_false] at hfrozen
    rw [dropWhile_isBlank_of_isPrefixOf isName_frozenClass (inPackage_ne_nil _) hfrozen,
      hreversed] at hbehind
    exact Bool.false_ne_true hbehind
  exact ofChars_of_hidden_wrapper (.head _) ⟨hreversed, hfrozen⟩ hbehind

/-- No composite has the name of the wrapper that reverses. -/
theorem HidesReversal.isComposite_eq_false {className : List Char} (h : HidesReversal className) :
    ClassName.isComposite (Place.start className).skipBlanks.name = false := by
  have hreversed := h.2
  rw [← isReversed_name, isReversed, List.isPrefixOf_iff_prefix] at hreversed
  obtain ⟨rest, hname⟩ := hreversed
  rw [← hname]
  exact isPrefixOf_word_append (.head _) (by simp [structuredClasses]) (by decide +kernel) rest

/-- The directions of a comparator fit the types, except where blanks stand in front of the wrapper
that reverses. A class name with such blanks is reversed, and kept with its wrapper as an unknown
class. -/
theorem ofClassName_agreesWith_iff (decoder : Decoder) (sink : Sink) (className : String)
    {comparator : Comparator} (h : (ofClassName decoder sink className).outcome = .ok comparator) :
    (List.Forall₂ (AgreesWith decoder sink) (sources className.toList) comparator.components ↔
      ¬ HidesReversal className.toList) ∧
    (HidesReversal className.toList →
      comparator = ⟨false, [⟨.custom className, true⟩], []⟩) := by
  rw [ofClassName] at h
  cases hcomposite : ClassName.isComposite (Place.start className.toList).skipBlanks.name with
  | true =>
    -- In a composite, the text of each unit tells both the direction and the type.
    have hnot : ¬ HidesReversal className.toList := fun hhides =>
      Bool.false_ne_true (hhides.isComposite_eq_false.symm.trans hcomposite)
    obtain ⟨units, p, harguments, -, hunits⟩ := exists_of_outcome_ofChars hcomposite h
    have hsources : sources className.toList = componentUnits units := by
      simp only [sources, hcomposite, if_true, harguments]
    refine ⟨iff_of_true ?_ hnot, fun hhides => absurd hhides hnot⟩
    rw [hsources]
    exact (forall₂_components hunits).imp fun _ _ hcomponent => hcomponent.agreesWith
  | false =>
    -- On its own, the name tells the direction and the text tells the type.
    obtain ⟨t, ht, rfl⟩ := (outcome_ofChars_eq_ok_iff hcomposite).1 h
    have hsources : sources className.toList = [className.toList] := by
      simp only [sources, hcomposite, Bool.false_eq_true, if_false]
    refine ⟨?_, fun hhides => ?_⟩
    · rw [hsources, List.forall₂_cons, and_iff_left .nil, ← isReversed_name_eq_iff]
      exact ⟨fun hagrees => hagrees.reversed_eq,
        fun hsame => IsComponentOf.agreesWith ⟨ht, hsame⟩⟩
    · rw [hhides.ofChars_eq] at ht
      cases ht
      rw [isReversed_name, hhides.2, String.ofList_toList]

/-- The units of a written composite are the sources of its components. -/
theorem sources_of_listText {units : List (List Char)} (hunits : ∀ u ∈ units, IsUnit u ∧ u ≠ []) :
    sources (compositeClass ++ listText units) = componentUnits units := by
  obtain ⟨hcomposite, p, harguments⟩ := exists_arguments_of_listText units hunits
  simp only [sources, hcomposite, if_true, harguments]

/-- In a composite of an integer and a reversed text, the directions fit the types. -/
theorem ofClassName_agreesWith_iff_composite :
    let units := [nativeClass .int, reversedClass ++ listText [nativeClass .text]]
    ∃ comparator, (ofClassName .hexDump .collect
        (String.ofList (compositeClass ++ listText units))).outcome = .ok comparator ∧
      List.Forall₂ (AgreesWith .hexDump .collect) units comparator.components := by
  intro units
  let es : List Expr := [.mk .none (.native .int), .mk .reversed (.native .text)]
  have hrender : es.map Expr.render = units := rfl
  have hunits : ∀ u ∈ units, IsUnit u ∧ u ≠ [] := by
    rw [← hrender]
    exact List.forall_mem_map.2 fun e _ => e.isUnit_render
  have hlast : ∀ last ∈ units.getLast?, isDynamicColumns last = false := by
    rintro _ ⟨⟩
    decide +kernel
  -- The composite is read, and its sources are its units.
  obtain ⟨comparator, hread, -⟩ := exists_ofClassName_of_expressions es (List.cons_ne_nil _ _)
    (by simp [es])
    (by rintro _ ⟨⟩; exact hlast _ rfl) Sink.accepts_collect
  rw [hrender] at hread
  have hsources : sources (compositeClass ++ listText units) = units := by
    rw [sources_of_listText hunits, componentUnits_eq_self (block?_eq_none hlast)]
  have hagrees := (ofClassName_agreesWith_iff .hexDump .collect _ hread).1
  rw [String.toList_ofList, hsources] at hagrees
  refine ⟨comparator, hread, hagrees.2 fun hhides => ?_⟩
  exact Bool.false_ne_true
    (hhides.isComposite_eq_false.symm.trans (exists_arguments_of_listText units hunits).1)

/-- With a blank in front of it, a reversed integer is reversed and kept with its wrapper. -/
theorem outcome_ofClassName_blank_reversed :
    let text := ' ' :: (reversedClass ++ listText [nativeClass .int])
    isReversed text = false ∧
      (ofClassName .hexDump .collect (String.ofList text)).outcome =
        .ok ⟨false, [⟨.custom (String.ofList text), true⟩], []⟩ := by
  intro text
  have hhides : HidesReversal text := ⟨by decide +kernel, by decide +kernel⟩
  refine ⟨hhides.1, ?_⟩
  rw [ofClassName, String.toList_ofList, outcome_ofChars_eq_ok_iff hhides.isComposite_eq_false]
  refine ⟨_, congrArg Reading.outcome hhides.ofChars_eq, ?_⟩
  rw [isReversed_name, hhides.2]

end Comparator

end SchemaTypes
