import SchemaTypes.Proofs.Comparator.Faults
import SchemaTypes.Proofs.Comparator.RoundTrip
import SchemaTypes.Proofs.CqlType.Induction

/-!
# The components of a comparator

A composite is read from its units, the last of which may be a block of dynamic columns. Each unit
in front of the block gives one component, with the type of this class name and with the direction
that its text starts with. A composite needs units, but the block counts as one, so that it may
stand alone; then there are no components.

## Main definitions

* `block?`, `componentUnits`: the block that ends a list of units, and the units in front of it.
* `readBlock`: the dynamic columns of an optional block.
* `IsComponentOf`: components with the type and the direction of a class name.
* `BlockAlone`: composites of a block and nothing else.

## Main results

* `ofChars_of_arguments`, `ofUnits_eq_bind`: a composite is read from its units.
* `forall₂_components`, `readBlock_of_ofUnits`: there is one component for each unit, and the
  dynamic columns are those of the block.
* `exists_of_readDynamicColumns`: there is one dynamic column for each name of a block.
* `ofClassName_components_eq_nil_iff`: which comparators have no components.
-/

namespace SchemaTypes.Comparator

open ClassName CqlType

variable {decoder : Decoder} {sink : Sink} {className : List Char} {units : List (List Char)}

/-- The block of dynamic columns that ends a list of units, if there is one. -/
def block? (units : List (List Char)) : Option (List Char) :=
  units.getLast?.filter isDynamicColumns

/-- The units in front of the block that ends a list. -/
def componentUnits (units : List (List Char)) : List (List Char) :=
  if (block? units).isSome then units.dropLast else units

theorem block?_of_getLast? {last : List Char} (h : units.getLast? = some last) :
    block? units = if isDynamicColumns last then some last else none := by
  rw [block?, h, Option.filter_some]

theorem componentUnits_of_getLast? {last : List Char} (h : units.getLast? = some last) :
    componentUnits units = if isDynamicColumns last then units.dropLast else units := by
  rw [componentUnits, block?_of_getLast? h]
  split <;> simp [*]

theorem block?_eq_none (h : ∀ last ∈ units.getLast?, isDynamicColumns last = false) :
    block? units = none := by
  rw [block?, Option.filter_eq_none_iff]
  intro last hlast
  rw [h last hlast]
  exact Bool.false_ne_true

/-- All units of a list stand in front of the block if there is none. -/
theorem componentUnits_eq_self (h : block? units = none) : componentUnits units = units := by
  rw [componentUnits, h]
  rfl

theorem mem_of_mem_componentUnits {u : List Char} (h : u ∈ componentUnits units) : u ∈ units := by
  rw [componentUnits] at h
  split at h
  · exact List.mem_of_mem_dropLast h
  · exact h

theorem mem_of_mem_block? {block : List Char} (h : block ∈ block? units) : block ∈ units :=
  List.mem_of_getLast? (Option.mem_filter_iff.1 h).1

/-- Only if a block stands alone, a list has units but none in front of the block. -/
theorem componentUnits_eq_nil_iff (h : units ≠ []) :
    componentUnits units = [] ↔ ∃ block, units = [block] ∧ isDynamicColumns block = true := by
  obtain ⟨init, last, rfl⟩ := units.eq_nil_or_concat'.resolve_left h
  have halone : (∃ block, init ++ [last] = [block] ∧ isDynamicColumns block = true) ↔
      init = [] ∧ isDynamicColumns last = true := by
    cases init <;> simp
  rw [halone, componentUnits_of_getLast? List.getLast?_concat, List.dropLast_concat]
  split <;> simp [*]

/-- A composite is read from its units, if it has any. -/
theorem ofChars_of_arguments {p : Place}
    (hcomposite : ClassName.isComposite (Place.start className).skipBlanks.name = true)
    (harguments : Scan.arguments (Place.start className).skipBlanks.afterName = .ok units p) :
    ofChars decoder sink className =
      if units = [] then .fail (.malformed (p.fault .componentsMissing) [])
      else ofUnits decoder sink (componentUnits units) (block? units) := by
  simp only [ofChars, hcomposite, if_true, harguments, List.isEmpty_iff]
  split
  · rfl
  · next hne =>
    have hlast := List.getLast?_eq_some_getLast hne
    rw [lastUnit, hlast, block?_of_getLast? hlast, componentUnits_of_getLast? hlast]
    -- Whether the last unit is a block is asked once, for the block and for what is in front.
    refine (Reading.pure_bind _ _).trans ?_
    split <;> rfl

/-- Reads the dynamic columns of an optional block. -/
def readBlock (decoder : Decoder) (sink : Sink) (block? : Option (List Char)) :
    Reading (Bindings CqlType) :=
  block?.elim (pure []) (readDynamicColumns decoder sink)

/-- A composite is read in two steps that give its dynamic columns and its types. There is one
direction for each type, so that they are put together without fail. -/
theorem ofUnits_eq_bind (units : List (List Char)) (block? : Option (List Char)) :
    ofUnits decoder sink units block? = (do
      let dynamicColumns ← readBlock decoder sink block?
      let types ← Reading.each units fun unit _ => CqlType.ofChars decoder sink unit
      pure ⟨true, types.zipWith Component.mk (units.map isReversed), dynamicColumns⟩) := by
  have hofUnits : ofUnits decoder sink units block? = (do
      let dynamicColumns ← readBlock decoder sink block?
      let types ← Reading.each units fun unit _ => CqlType.ofChars decoder sink unit
      checked (ofLists true types (units.map isReversed) dynamicColumns)) := by
    cases block? <;> rfl
  rw [hofUnits]
  refine Reading.bind_congr fun dynamicColumns _ => Reading.bind_congr fun types htypes => ?_
  have hlength : types.length = (units.map isReversed).length := by
    rw [Reading.length_of_outcome_each htypes, List.length_map]
  rw [ofLists, if_pos hlength]
  rfl

/-- Only the directions are added to the types. -/
theorem types_zipWith {types : List CqlType} {flags : List Bool}
    (h : types.length = flags.length) (isComposite : Bool) (dynamicColumns : Bindings CqlType) :
    Comparator.types ⟨isComposite, types.zipWith Component.mk flags, dynamicColumns⟩ = types := by
  rw [Comparator.types, List.map_zipWith]
  exact List.ext_getElem (by simp [h]) (by simp)

/-- A component has the type of a class name and its direction. -/
structure IsComponentOf (decoder : Decoder) (sink : Sink) (unit : List Char)
    (component : Component) : Prop where
  /-- The type is read from the class name. -/
  type_eq : (CqlType.ofChars decoder sink unit).outcome = .ok component.type
  /-- The direction is told by how the text starts. -/
  reversed_eq : component.reversed = isReversed unit

/-- Types and directions that are put together make one component for each unit. -/
theorem forall₂_zipWith {types : List CqlType}
    (h : List.Forall₂ (fun unit type => (CqlType.ofChars decoder sink unit).outcome = .ok type)
      units types) :
    List.Forall₂ (IsComponentOf decoder sink) units
      (types.zipWith Component.mk (units.map isReversed)) := by
  induction h with
  | nil => exact .nil
  | cons htype _ ih => exact .cons ⟨htype, rfl⟩ ih

/-- There is one component for each unit. -/
theorem forall₂_components {block? : Option (List Char)} {comparator : Comparator}
    (h : (ofUnits decoder sink units block?).outcome = .ok comparator) :
    List.Forall₂ (IsComponentOf decoder sink) units comparator.components := by
  rw [ofUnits_eq_bind] at h
  obtain ⟨dynamicColumns, -, h⟩ := Reading.outcome_bind_eq_ok_iff.1 h
  obtain ⟨types, htypes, h⟩ := Reading.outcome_bind_eq_ok_iff.1 h
  cases h
  exact forall₂_zipWith ((Reading.forall₂_of_outcome_each htypes).imp fun _ _ ⟨_, htype⟩ => htype)

/-- The types of the components are read one for one. -/
theorem forall₂_types {block? : Option (List Char)} {comparator : Comparator}
    (h : (ofUnits decoder sink units block?).outcome = .ok comparator) :
    List.Forall₂ (fun unit t => (CqlType.ofChars decoder sink unit).outcome = .ok t) units
      comparator.types := by
  rw [types, List.forall₂_map_right_iff]
  exact (forall₂_components h).imp fun _ _ hcomponent => hcomponent.type_eq

/-- The dynamic columns are those of the block. -/
theorem readBlock_of_ofUnits {block? : Option (List Char)} {comparator : Comparator}
    (h : (ofUnits decoder sink units block?).outcome = .ok comparator) :
    (readBlock decoder sink block?).outcome = .ok comparator.dynamicColumns := by
  rw [ofUnits_eq_bind] at h
  obtain ⟨columns, hcolumns, h⟩ := Reading.outcome_bind_eq_ok_iff.1 h
  obtain ⟨_, -, h⟩ := Reading.outcome_bind_eq_ok_iff.1 h
  cases h
  exact hcolumns

/-- Dynamic columns have the names of a block and are read one for one from the units that are bound
to these. -/
theorem exists_of_readDynamicColumns {block : List Char} {columns : Bindings CqlType}
    (h : (readDynamicColumns decoder sink block).outcome = .ok columns) :
    ∃ bindings q,
      Scan.namedArguments decoder (Place.start block).skipBlanks.afterName = .ok bindings q ∧
      columns.names = bindings.names ∧
      List.Forall₂ (fun unit t => (CqlType.ofChars decoder sink unit).outcome = .ok t)
        bindings.values columns.values := by
  rw [readDynamicColumns] at h
  split at h
  · cases h
  · next bindings q hbindings =>
    obtain ⟨types, htypes, h⟩ := Reading.outcome_bind_eq_ok_iff.1 h
    cases h
    obtain ⟨hnames, hread⟩ := bindings_of_outcome_each htypes
    exact ⟨bindings, q, hbindings, hnames, hread.imp fun _ _ => Exists.snd⟩

/-- A composite that is read has units, and is read from them. -/
theorem exists_of_outcome_ofChars {comparator : Comparator}
    (hcomposite : ClassName.isComposite (Place.start className).skipBlanks.name = true)
    (h : (ofChars decoder sink className).outcome = .ok comparator) :
    ∃ units p, Scan.arguments (Place.start className).skipBlanks.afterName = .ok units p ∧
      units ≠ [] ∧
      (ofUnits decoder sink (componentUnits units) (block? units)).outcome = .ok comparator := by
  cases harguments : Scan.arguments (Place.start className).skipBlanks.afterName with
  | error fault q =>
    simp only [ofChars, hcomposite, if_true, harguments] at h
    cases h
  | ok units p =>
    rw [ofChars_of_arguments hcomposite harguments] at h
    split at h
    · cases h
    · next hne => exact ⟨units, p, rfl, hne, h⟩

/-- A class name that is no composite is read as a type, which is the only component. -/
theorem outcome_ofChars_eq_ok_iff {comparator : Comparator}
    (hcomposite : ClassName.isComposite (Place.start className).skipBlanks.name = false) :
    (ofChars decoder sink className).outcome = .ok comparator ↔
      ∃ type, (CqlType.ofChars decoder sink className).outcome = .ok type ∧ comparator =
        ⟨false, [⟨type, isReversed (Place.start className).skipBlanks.name⟩], []⟩ := by
  simp only [ofChars, hcomposite, Bool.false_eq_true, if_false]
  rw [Reading.outcome_bind_eq_ok_iff]
  refine exists_congr fun type => and_congr_right fun _ => ?_
  exact (Except.ok.injEq _ _).to_iff.trans eq_comm

/-- A composite whose only argument is a block of dynamic columns. -/
def BlockAlone (className : List Char) : Prop :=
  ClassName.isComposite (Place.start className).skipBlanks.name = true ∧
    ∃ block p, Scan.arguments (Place.start className).skipBlanks.afterName = .ok [block] p ∧
      isDynamicColumns block = true

/-- From a composite of a block and nothing else, the dynamic columns are read. -/
theorem ofChars_of_block {block : List Char} {p : Place}
    (hcomposite : ClassName.isComposite (Place.start className).skipBlanks.name = true)
    (harguments : Scan.arguments (Place.start className).skipBlanks.afterName = .ok [block] p)
    (hblock : isDynamicColumns block = true) :
    ofChars decoder sink className = (do
      let dynamicColumns ← readDynamicColumns decoder sink block
      pure ⟨true, [], dynamicColumns⟩) := by
  have hlast : [block].getLast? = some block := rfl
  rw [ofChars_of_arguments hcomposite harguments, if_neg (List.cons_ne_nil _ _),
    componentUnits_of_getLast? hlast, block?_of_getLast? hlast, if_pos hblock, if_pos hblock,
    ofUnits_eq_bind]
  exact Reading.bind_congr fun _ _ => Reading.pure_bind _ _

/-- A comparator has no components if and only if it is read from a block that stands alone. -/
theorem components_eq_nil_iff {comparator : Comparator}
    (h : (ofChars decoder sink className).outcome = .ok comparator) :
    comparator.components = [] ↔ BlockAlone className := by
  cases hcomposite : ClassName.isComposite (Place.start className).skipBlanks.name with
  | true =>
    obtain ⟨units, p, harguments, hne, hunits⟩ := exists_of_outcome_ofChars hcomposite h
    -- There are as many components as units in front of the block.
    have hlength := (forall₂_components hunits).length_eq
    rw [← List.length_eq_zero_iff, ← hlength, List.length_eq_zero_iff,
      componentUnits_eq_nil_iff hne]
    constructor
    · rintro ⟨block, rfl, hblock⟩
      exact ⟨hcomposite, block, p, harguments, hblock⟩
    · rintro ⟨-, block, q, halone, hblock⟩
      cases harguments.symm.trans halone
      exact ⟨block, rfl, hblock⟩
  | false =>
    obtain ⟨type, -, rfl⟩ := (outcome_ofChars_eq_ok_iff hcomposite).1 h
    refine ⟨fun hnil => absurd hnil (List.cons_ne_nil _ _), fun halone => ?_⟩
    exact absurd (hcomposite.symm.trans halone.1) Bool.false_ne_true

/-- The units of a written composite. -/
theorem exists_arguments_of_listText (units : List (List Char))
    (hunits : ∀ u ∈ units, IsUnit u ∧ u ≠ []) :
    ClassName.isComposite (Place.start (compositeClass ++ listText units)).skipBlanks.name =
        true ∧
      ∃ p, Scan.arguments (Place.start (compositeClass ++ listText units)).skipBlanks.afterName =
        .ok units p := by
  have hgroup := isGroup_listText fun u hu => (hunits u hu).1.balanced
  obtain ⟨hskip, hname, hafter⟩ := Place.start_unit isName_compositeClass (.inr hgroup)
  rw [hskip, hname]
  have hcomposite : ClassName.isComposite compositeClass = true := by decide +kernel
  exact ⟨hcomposite, _, Scan.arguments_of_isUnit hunits (hafter.trans (List.append_nil _).symm)⟩

/-- A written block that stands alone is read with no components. -/
theorem outcome_ofChars_block (columns : List (String × Expr)) (h : WritableBlock columns)
    {sink : Sink} (hsink : sink.Accepts) :
    (ofChars .hexDump sink (compositeClass ++ listText [blockText columns])).outcome =
      .ok ⟨true, [], blockTypes (some columns)⟩ := by
  obtain ⟨hcomposite, p, harguments⟩ := exists_arguments_of_listText [blockText columns]
    (List.forall_mem_singleton.2 (isUnit_blockText columns))
  rw [ofChars_of_block hcomposite harguments (isDynamicColumns_blockText columns)]
  exact (Reading.outcome_bind_of_ok (outcome_readDynamicColumns h hsink) _).trans rfl

/-- A composite of written expressions is read, with one component for each of them. -/
theorem exists_ofClassName_of_expressions (es : List Expr) (hne : es ≠ [])
    (hes : ∀ e ∈ es, e.DistinctFields)
    (hlast : ∀ e ∈ es.getLast?, isDynamicColumns e.render = false) (hsink : sink.Accepts) :
    ∃ comparator, (ofClassName .hexDump sink
        (String.ofList (compositeClass ++ listText (es.map Expr.render)))).outcome =
          .ok comparator ∧ comparator.components.length = es.length := by
  have htext : compositeText (es.map Expr.render) none =
      compositeClass ++ listText (es.map Expr.render) := by
    rw [compositeText, Option.map_none, Option.toList_none, List.append_nil]
  have hnone : ∀ columns ∈ (none : Option (List (String × Expr))), WritableBlock columns := by
    simp
  have hread := outcome_ofChars_compositeText (fun e _ => e.isUnit_render)
    (fun e he => outcome_ofChars_render (hes e he) hsink) hnone hne (fun _ => hlast) hsink
  rw [htext] at hread
  rw [ofClassName, String.toList_ofList]
  exact ⟨_, hread, List.length_map _⟩

/-- A comparator that is read has as many directions as components, and it has at least one unless
it is read from a composite of a block and nothing else. A composite without units is malformed,
and from a block that stands alone the dynamic columns are read, with no components. -/
theorem ofClassName_components_eq_nil_iff (decoder : Decoder) (sink : Sink) (className : String) :
    (∀ comparator, (ofClassName decoder sink className).outcome = .ok comparator →
      comparator.reversedFlags.length = comparator.components.length ∧
      comparator.clusteringOrder.length = comparator.components.length ∧
      (comparator.components = [] ↔ BlockAlone className.toList)) ∧
    (ClassName.isComposite (Place.start className.toList).skipBlanks.name = true →
      (∀ p, Scan.arguments (Place.start className.toList).skipBlanks.afterName = .ok [] p →
        ofClassName decoder sink className = .fail (.malformed (p.fault .componentsMissing) [])) ∧
      ∀ block p, Scan.arguments (Place.start className.toList).skipBlanks.afterName =
          .ok [block] p → isDynamicColumns block = true →
        ofClassName decoder sink className = (do
          let dynamicColumns ← readDynamicColumns decoder sink block
          pure ⟨true, [], dynamicColumns⟩)) := by
  refine ⟨fun comparator h => ⟨?_, ?_, components_eq_nil_iff h⟩, fun hcomposite => ⟨?_, ?_⟩⟩
  · rw [reversedFlags, List.length_map]
  · rw [clusteringOrder, List.length_map]
  · intro p harguments
    exact ofChars_of_arguments hcomposite harguments
  · intro block p harguments hblock
    exact ofChars_of_block hcomposite harguments hblock

/-- A composite with a component, one without units, and one of an empty block. -/
theorem ofClassName_components_eq_nil_iff_written :
    (∃ comparator, (ofClassName .hexDump .collect (String.ofList
        (compositeClass ++ listText [nativeClass .int]))).outcome = .ok comparator ∧
      comparator.reversedFlags.length = comparator.components.length ∧
      comparator.clusteringOrder.length = comparator.components.length ∧
      ¬ BlockAlone (compositeClass ++ listText [nativeClass .int])) ∧
    (∃ fault, ofClassName .hexDump .collect (String.ofList (compositeClass ++ listText [])) =
      .fail (.malformed fault []) ∧ fault.reason = .componentsMissing) ∧
    ofClassName .hexDump .collect (String.ofList (compositeClass ++ listText [blockText []])) = (do
      let dynamicColumns ← readDynamicColumns .hexDump .collect (blockText [])
      pure ⟨true, [], dynamicColumns⟩) := by
  refine ⟨?_, ?_, ?_⟩
  · obtain ⟨comparator, hread, hlength⟩ := exists_ofClassName_of_expressions
      [.mk .none (.native .int)] (List.cons_ne_nil _ _)
      (by simp)
      (by rintro _ ⟨⟩; decide +kernel) Sink.accepts_collect
    obtain ⟨hreversed, hordered, hnil⟩ := (ofClassName_components_eq_nil_iff _ _ _).1 _ hread
    rw [String.toList_ofList] at hnil
    refine ⟨comparator, hread, hreversed, hordered, fun halone => ?_⟩
    rw [hnil.2 halone] at hlength
    cases hlength
  · obtain ⟨hcomposite, p, harguments⟩ := exists_arguments_of_listText [] (by simp)
    rw [← String.toList_ofList (l := compositeClass ++ listText [])] at hcomposite harguments
    have hfail := ((ofClassName_components_eq_nil_iff .hexDump .collect _).2 hcomposite).1 p
      harguments
    exact ⟨_, hfail, rfl⟩
  · obtain ⟨hcomposite, p, harguments⟩ := exists_arguments_of_listText [blockText []]
      (List.forall_mem_singleton.2 (isUnit_blockText []))
    rw [← String.toList_ofList (l := compositeClass ++ listText [blockText []])]
      at hcomposite harguments
    exact ((ofClassName_components_eq_nil_iff .hexDump .collect _).2 hcomposite).2 _ p harguments
      (isDynamicColumns_blockText [])

/-- A composite may have a dynamic column and no component. -/
theorem outcome_ofClassName_block_alone :
    (ofClassName .hexDump .collect (String.ofList (compositeClass ++ listText
      [dynamicColumnsClass ++ listText [namedText ("a", nativeClass .int)]]))).outcome =
        .ok ⟨true, [], [("a", .native .int)]⟩ := by
  rw [ofClassName, String.toList_ofList]
  have hblock : WritableBlock [("a", .mk .none (.native .int))] :=
    ⟨by simp, by simp⟩
  exact outcome_ofChars_block _ hblock Sink.accepts_collect

end SchemaTypes.Comparator
