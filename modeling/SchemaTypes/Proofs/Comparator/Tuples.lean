import SchemaTypes.Proofs.ClassName.LeadingName
import SchemaTypes.Proofs.ClassName.Passing
import SchemaTypes.Proofs.Comparator.Components
import SchemaTypes.Proofs.CqlType.Wrappers

/-!
# Composites and tuples

Without a block of dynamic columns, a composite is read like the tuple of its components: the same
arguments are read in the same order, whatever the text of the arguments is and whatever follows
it. Both report the same, and fail alike.

## Main definitions

* `Reading.Matches`: readings that report the same and fail alike.

## Main results

* `ofChars_of_arguments_components`: a composite without a block is read from its arguments.
* `ofClassName_matches_tuple`: a composite without a block matches a tuple.
-/

namespace SchemaTypes

namespace ClassName

/-- Both readings report the same, and they fail with the same fault or succeed with values that
are related. -/
structure Reading.Matches {α β : Type} (R : α → β → Prop) (reading : Reading α)
    (other : Reading β) : Prop where
  /-- The same is reported in the same order. -/
  events_eq : reading.events = other.events
  /-- Both fail with the same fault. -/
  error_iff : ∀ fault, reading.outcome = .error fault ↔ other.outcome = .error fault
  /-- Both succeed. -/
  ok_iff : (∃ a, reading.outcome = .ok a) ↔ ∃ b, other.outcome = .ok b
  /-- The values are related. -/
  related : ∀ a b, reading.outcome = .ok a → other.outcome = .ok b → R a b

/-- What is made from the values of one reading matches if it is related. -/
theorem Reading.matches_of_bind_pure {α β γ : Type} {R : β → γ → Prop} {reading : Reading α}
    {f : α → β} {g : α → γ} (h : ∀ a, reading.outcome = .ok a → R (f a) (g a)) :
    Matches R (do let a ← reading; pure (f a)) (do let a ← reading; pure (g a)) := by
  rw [bind_pure_eq_map, bind_pure_eq_map]
  obtain ⟨events, fault | a⟩ := reading
  · exact ⟨rfl, fun _ => by simp [Except.map], by simp [Except.map], by simp [Except.map]⟩
  · have hrelated := h a rfl
    exact ⟨rfl, fun _ => by simp [Except.map], by simp [Except.map], by simpa [Except.map]⟩

/-- Arguments that are read somewhere are read wherever the same text is left. -/
theorem Scan.exists_arguments_of_unread_eq {p p' q : Place} {us : List (List Char)}
    (h : arguments p = .ok us q) (hunread : p'.unread = p.unread) :
    ∃ q', arguments p' = .ok us q' := by
  rcases readsGroup_arguments.of_ok h with hended | ⟨_, _, rest, hgroup, -, -, hagain⟩
  · -- Where the text has ended, there are no arguments.
    rw [arguments, opened_apply, hended] at h
    cases h
    refine ⟨p', ?_⟩
    rw [arguments, opened_apply, hunread, hended]
  · exact hagain (hunread.trans hgroup)

end ClassName

namespace Comparator

open ClassName

/-- Without a block, the components of a composite are all its units. -/
theorem ofChars_of_arguments_components {decoder : Decoder} {sink : Sink} {className : List Char}
    {units : List (List Char)} {q : Place}
    (hcomposite : ClassName.isComposite (Place.start className).skipBlanks.name = true)
    (harguments : Scan.arguments (Place.start className).skipBlanks.afterName = .ok units q)
    (hne : units ≠ []) (hlast : ∀ last ∈ units.getLast?, isDynamicColumns last = false) :
    ofChars decoder sink className = (do
      let types ← Reading.each units fun unit _ => CqlType.ofChars decoder sink unit
      pure ⟨true, types.zipWith Component.mk (units.map isReversed), []⟩) := by
  rw [ofChars_of_arguments hcomposite harguments, if_neg hne, block?_eq_none hlast,
    componentUnits_eq_self (block?_eq_none hlast), ofUnits_eq_bind]
  exact Reading.pure_bind _ _

/-- A composite without a block of dynamic columns is read like a tuple with the same text behind
the word. -/
theorem ofClassName_matches_tuple (decoder : Decoder) (sink : Sink) (s : String)
    {units : List (List Char)} {q : Place}
    (hunits : Scan.arguments (Place.start (compositeClass ++ s.toList)).skipBlanks.afterName =
      .ok units q)
    (hne : units ≠ []) (hlast : ∀ last ∈ units.getLast?, ¬ dynamicColumnsClass <+: last) :
    Reading.Matches
      (fun comparator t => comparator.isComposite = true ∧ comparator.dynamicColumns = [] ∧
        t = .tuple comparator.types)
      (ofClassName decoder sink (String.ofList compositeClass ++ s))
      (CqlType.ofClassName decoder sink (String.ofList tupleClass ++ s)) := by
  obtain ⟨hname, hbehind⟩ := Place.start_word isName_compositeClass (inPackage_ne_nil _) s.toList
  obtain ⟨hname', hbehind'⟩ := Place.start_word isName_tupleClass (inPackage_ne_nil _) s.toList
  obtain ⟨q', hunits'⟩ := Scan.exists_arguments_of_unread_eq hunits (hbehind'.trans hbehind.symm)
  have hcomposite : ofChars decoder sink (compositeClass ++ s.toList) = (do
      let types ← Reading.each units fun unit _ => CqlType.ofChars decoder sink unit
      pure ⟨true, types.zipWith Component.mk (units.map isReversed), []⟩) := by
    refine ofChars_of_arguments_components ?_ hunits hne fun last hmem => ?_
    · rw [hname]
      exact isPrefixOf_append_self _ _
    · rw [Bool.eq_false_iff, isDynamicColumns, Ne, List.isPrefixOf_iff_prefix]
      exact hlast last hmem
  have htuple : CqlType.ofChars decoder sink (tupleClass ++ s.toList) = (do
      let types ← Reading.each units fun unit _ => CqlType.ofChars decoder sink unit
      pure (.tuple types)) := by
    refine CqlType.ofChars_of_tuple (ofName_tupleClass_append _).1 ?_ hunits'
    rw [hname']
    exact (ofName_tupleClass_append _).2
  rw [ofClassName, CqlType.ofClassName, String.toList_append, String.toList_append,
    String.toList_ofList, String.toList_ofList, hcomposite, htuple]
  -- Both are made from the types of the same units.
  refine Reading.matches_of_bind_pure fun types htypes => ⟨rfl, rfl, ?_⟩
  have hlength : types.length = (units.map isReversed).length := by
    rw [Reading.length_of_outcome_each htypes, List.length_map]
  rw [types_zipWith hlength]

/-- A longer name in front of the arguments and another class behind them change nothing. -/
theorem ofClassName_matches_tuple_between :
    let units := [nativeClass .int, reversedClass ++ listText ["Point".toList]]
    let s := String.ofList ("s".toList ++ (listText units ++ "Point".toList))
    (∃ q, Scan.arguments (Place.start (compositeClass ++ s.toList)).skipBlanks.afterName =
      .ok units q) ∧
    Reading.Matches
      (fun comparator t => comparator.isComposite = true ∧ comparator.dynamicColumns = [] ∧
        t = .tuple comparator.types)
      (ofClassName .hexDump .log (String.ofList compositeClass ++ s))
      (CqlType.ofClassName .hexDump .log (String.ofList tupleClass ++ s)) := by
  intro units s
  have hpoint : IsName "Point".toList := by decide
  have hgroup := isGroup_listText_singleton (isUnit_of_isName hpoint)
  have hunits : ∀ u ∈ units, IsUnit u ∧ u ≠ [] := by
    rw [List.forall_mem_cons, List.forall_mem_singleton]
    exact ⟨⟨isUnit_of_isName (isName_nativeClass .int), inPackage_ne_nil _⟩,
      ⟨reversedClass, _, rfl, isName_reversedClass, .inr hgroup⟩,
      List.append_ne_nil_of_left_ne_nil (inPackage_ne_nil _) _⟩
  obtain ⟨q, hread⟩ : ∃ q, Scan.arguments
      (Place.start (compositeClass ++ s.toList)).skipBlanks.afterName = .ok units q := by
    have hunread := (Place.start_word isName_compositeClass (inPackage_ne_nil _) s.toList).2
    rw [String.toList_ofList] at hunread ⊢
    exact ⟨_, Scan.arguments_of_isUnit hunits hunread⟩
  refine ⟨⟨q, hread⟩, ?_⟩
  refine ofClassName_matches_tuple .hexDump .log s hread (List.cons_ne_nil _ _) ?_
  rintro _ ⟨⟩
  decide +kernel

end Comparator

end SchemaTypes
