import SchemaTypes.Proofs.ClassName.Words
import SchemaTypes.Proofs.CqlType.Induction

/-!
# Types inside wrappers

A class name is read inside its wrapper, if it has one. The class name inside is shorter, so that a
text is never kept with the wrapper that was taken off.

## Main definitions

* `ofUnwrapped`: the type of a class name without its wrapper.

## Main results

* `ofChars_of_unwrap`: the type of a class name is that of the class name inside its wrapper.
* `outcome_ofUnwrapped_of_ofArguments`: this one is read from its outermost level.
* `exists_soleArgument_of_not_isBare`: the type of a class name with a wrapper.
* `ofChars_of_unknown`, `ofChars_of_tuple`: class names without a wrapper.
-/

namespace SchemaTypes.CqlType

open ClassName Layer

variable {decoder : Decoder} {sink : Sink} {className inner : List Char}

/-- Reads the type of a class name without its wrapper. -/
def ofUnwrapped (decoder : Decoder) (sink : Sink) (wrapper : Wrapper) (className : List Char) :
    Reading CqlType := do
  let layer ← Layer.ofUnwrapped decoder sink wrapper className
  let types ← layer.traverse fun part _ => ofChars decoder sink part
  return ofLayer types

/-- The type of a class name is that of the class name inside its wrapper. -/
theorem ofChars_of_unwrap {wrapper : Wrapper} (h : unwrap className = .ok (wrapper, inner)) :
    ofChars decoder sink className = ofUnwrapped decoder sink wrapper inner := by
  have hlayer : Layer.ofClassName decoder sink className =
      Layer.ofUnwrapped decoder sink wrapper inner := by
    rw [Layer.ofClassName, h]
    exact Reading.pure_bind _ _
  rw [ofChars_eq_bind, hlayer, ofUnwrapped]

/-- If the sink refuses nothing, a class name without its wrapper is read from its outermost level,
whatever the wrapper was. -/
theorem outcome_ofUnwrapped_of_ofArguments (hsink : sink.Accepts) {wrapper : Wrapper}
    {layer : Layer (List Char)}
    (h : ofArguments decoder (wrapper = .frozen) inner (Place.start inner).skipBlanks.afterName
      (Head.ofName (Place.start inner).skipBlanks.name) = .ok layer) :
    (ofUnwrapped decoder sink wrapper inner).outcome =
      (layer.traverse fun part _ => ofChars decoder sink part).outcome.map ofLayer := by
  have hlayer : (Layer.ofUnwrapped decoder sink wrapper inner).outcome = .ok layer :=
    (Layer.outcome_ofUnwrapped hsink wrapper inner).trans h
  rw [ofUnwrapped, Reading.outcome_bind_of_ok hlayer, Reading.bind_pure_eq_map]

/-- What is known about a type that is read without its wrapper. -/
theorem exists_of_ofUnwrapped {wrapper : Wrapper} {t : CqlType}
    (h : (ofUnwrapped decoder sink wrapper inner).outcome = .ok t) :
    ∃ layer types, ofArguments decoder (wrapper = .frozen) inner
        (Place.start inner).skipBlanks.afterName (Head.ofName (Place.start inner).skipBlanks.name) =
          .ok layer ∧
      (layer.traverse fun part _ => ofChars decoder sink part).outcome = .ok types ∧
      t = ofLayer types := by
  obtain ⟨layer, hlayer, h⟩ := Reading.outcome_bind_eq_ok_iff.1 h
  obtain ⟨types, htypes, h⟩ := Reading.outcome_bind_eq_ok_iff.1 h
  -- The two reports around the arguments have no values.
  simp only [Layer.ofUnwrapped, Reading.outcome_bind_eq_ok_iff, Reading.outcome_ofExcept,
    Reading.outcome_pure] at hlayer
  obtain ⟨_, -, layer', hlayer, _, -, heq⟩ := hlayer
  cases heq
  exact ⟨layer, types, hlayer, htypes, (Except.ok.inj h).symm⟩

/-- Only a level of an unknown class is read as one. -/
theorem eq_custom_of_traverse {layer : Layer (List Char)}
    {read : (part : List Char) → part ∈ layer.parts → Reading CqlType} {types : Layer CqlType}
    {text : String} (h : (layer.traverse read).outcome = .ok types)
    (htypes : ofLayer types = .custom text) : layer = .custom text := by
  cases rel_of_traverse h with
  | custom className =>
    cases htypes
    rfl
  -- No other level is made into a type that is kept as text.
  | _ => cases htypes

/-- Only an unknown class is kept as text, and this text is the whole. -/
theorem eq_ofList_of_ofArguments {frozen : Bool} {p : Place} {head : Head} {text : String}
    (h : ofArguments decoder frozen className p head = .ok (.custom text)) :
    text = String.ofList className := by
  cases fromArguments_of_ofArguments h
  rfl

/-- A type that is kept as text is kept without its wrapper. -/
theorem eq_ofList_of_ofUnwrapped {wrapper : Wrapper} {text : String}
    (h : (ofUnwrapped decoder sink wrapper inner).outcome = .ok (.custom text)) :
    text = String.ofList inner := by
  obtain ⟨layer, types, hlayer, htypes, heq⟩ := exists_of_ofUnwrapped h
  obtain rfl := eq_custom_of_traverse htypes heq.symm
  exact eq_ofList_of_ofArguments hlayer

theorem unwrap_of_isBare (h : IsBare className) : unwrap className = .ok (.none, className) := by
  simp only [unwrap, h.1, h.2, Bool.false_eq_true, if_false]

/-- A class name that has no wrapper and announces nothing is kept as text, whatever follows its
name. -/
theorem ofChars_of_unknown (hbare : IsBare className)
    (hhead : Head.ofName (Place.start className).skipBlanks.name = .unknown) :
    ofChars decoder sink className =
      ⟨[.keptVerbatim (String.ofList className)], .ok (.custom (String.ofList className))⟩ := by
  have hlayer : Layer.ofUnwrapped decoder sink .none className =
      ⟨[.keptVerbatim (String.ofList className)], .ok (.custom (String.ofList className))⟩ := by
    simp only [Layer.ofUnwrapped, hhead]
    rfl
  rw [ofChars_of_unwrap (unwrap_of_isBare hbare), ofUnwrapped, hlayer]
  rfl

/-- A tuple is read from its arguments. -/
theorem ofChars_of_tuple {units : List (List Char)} {q : Place} (hbare : IsBare className)
    (hhead : Head.ofName (Place.start className).skipBlanks.name = .tuple)
    (harguments : Scan.arguments (Place.start className).skipBlanks.afterName = .ok units q) :
    ofChars decoder sink className = (do
      let types ← Reading.each units fun unit _ => ofChars decoder sink unit
      pure (.tuple types)) := by
  have hlayer : Layer.ofUnwrapped decoder sink .none className = pure (.tuple units) := by
    simp only [Layer.ofUnwrapped, hhead, ofArguments, harguments]
    rfl
  rw [ofChars_of_unwrap (unwrap_of_isBare hbare), ofUnwrapped, hlayer, Reading.pure_bind]
  exact Reading.bind_assoc _ _ _

/-- The class name inside a wrapper is shorter than the whole. -/
theorem length_lt_of_soleArgument (h : soleArgument className = .ok inner) :
    inner.length < className.length := by
  obtain ⟨units, q, hunits, hmem⟩ := arguments_of_soleArgument h
  have := Scan.length_lt_of_mem_arguments hunits hmem
  have := (Place.start className).skipBlanks.length_afterName_le
  have := (Place.start className).length_skipBlanks_le
  rw [Place.unread_start] at this
  omega

/-- A wrapper is taken off from its only argument. -/
theorem unwrap_of_not_isBare (h : ¬ IsBare className) : unwrap className =
    (soleArgument className).map (if isReversed className then .reversed else .frozen, ·) := by
  rw [unwrap]
  split
  · rfl
  · -- The wrapper that freezes is the only other one.
    next hreversed =>
    have hfrozen : isFrozen className = true := by
      by_contra hfrozen
      exact h ⟨Bool.eq_false_iff.2 hreversed, Bool.eq_false_iff.2 hfrozen⟩
    rw [if_pos hfrozen]

/-- A class name with a wrapper is read from its only argument. -/
theorem exists_soleArgument_of_not_isBare {t : CqlType} (hbare : ¬ IsBare className)
    (h : (ofChars decoder sink className).outcome = .ok t) :
    ∃ inner, soleArgument className = .ok inner ∧
      (ofUnwrapped decoder sink (if isReversed className then .reversed else .frozen)
        inner).outcome = .ok t := by
  have hunwrap := unwrap_of_not_isBare hbare
  cases hsole : soleArgument className with
  | error fault =>
    rw [hsole] at hunwrap
    rw [ofChars_eq_bind, Layer.ofClassName, hunwrap] at h
    cases h
  | ok inner =>
    rw [hsole] at hunwrap
    exact ⟨inner, rfl, ofChars_of_unwrap hunwrap ▸ h⟩

end SchemaTypes.CqlType
