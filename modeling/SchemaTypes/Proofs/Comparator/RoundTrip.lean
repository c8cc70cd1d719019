import SchemaTypes.Comparator.OfClassName
import SchemaTypes.Proofs.CqlType.RoundTrip

/-!
# Written composites are read back

A composite is written with the texts of its components and, behind them, an optional block of
dynamic columns. Reading it gives the components in order, each with its direction, and the
dynamic columns.

## Main definitions

* `blockText`, `compositeText`: how blocks of dynamic columns and composites are written.

## Main results

* `ofChars_compositeText`: a written composite is read from its components and its block.
* `outcome_ofChars_compositeText`: a composite is read back if its components are.
* `ofClassName_compositeText`: the comparator of a composite of written expressions.
-/

namespace SchemaTypes.Comparator

open ClassName CqlType

/-- The text of a block of dynamic columns. -/
def blockText (columns : List (String × Expr)) : List Char :=
  dynamicColumnsClass ++ listText (columns.map fun column => namedText (column.1, column.2.render))

/-- The text of a composite from the texts of its components. -/
def compositeText (units : List (List Char)) (block : Option (List (String × Expr))) : List Char :=
  compositeClass ++ listText (units ++ (block.map blockText).toList)

/-- The types of the dynamic columns of an optional block. -/
def blockTypes (block : Option (List (String × Expr))) : Bindings CqlType :=
  (block.getD []).map fun column => (column.1, column.2.type)

/-- The columns of a block have distinct names, and their types may be written. -/
structure WritableBlock (columns : List (String × Expr)) : Prop where
  /-- The names are distinct. -/
  nodup : (columns.map Prod.fst).Nodup
  /-- No type has a user-defined type with two fields of one name. -/
  distinctFields : ∀ column ∈ columns, column.2.DistinctFields

theorem isGroup_blockText (columns : List (String × Expr)) :
    IsGroup (listText (columns.map fun column => namedText (column.1, column.2.render))) := by
  apply isGroup_listText
  rw [List.forall_mem_map]
  intro column _
  exact balanced_namedText column.2.isUnit_render.1

theorem isUnit_blockText (columns : List (String × Expr)) :
    IsUnit (blockText columns) ∧ blockText columns ≠ [] :=
  ⟨⟨_, _, rfl, isName_dynamicColumnsClass, .inr (isGroup_blockText columns)⟩,
    List.append_ne_nil_of_right_ne_nil _ (List.cons_ne_nil _ _)⟩

theorem isDynamicColumns_blockText (columns : List (String × Expr)) :
    isDynamicColumns (blockText columns) = true := by
  rw [isDynamicColumns, List.isPrefixOf_iff_prefix]
  exact List.prefix_append _ _

/-- What does not start with the class of blocks is not taken for one. -/
theorem isDynamicColumns_render {e : Expr} (h : ¬ dynamicColumnsClass <+: e.render) :
    isDynamicColumns e.render = false := by
  rw [Bool.eq_false_iff, isDynamicColumns, Ne, List.isPrefixOf_iff_prefix]
  exact h

/-- The columns of a block with the texts of their types. -/
def blockUnits (columns : List (String × Expr)) : Bindings (List Char) :=
  columns.map fun column => (column.1, column.2.render)

/-- A written block is read column by column. -/
theorem readDynamicColumns_blockText {columns : List (String × Expr)} (h : WritableBlock columns)
    (sink : Sink) : readDynamicColumns .hexDump sink (blockText columns) = (do
      let types ← Reading.each (blockUnits columns).values fun unit _ =>
        CqlType.ofChars .hexDump sink unit
      pure ((blockUnits columns).names.zip types)) := by
  obtain ⟨hskip, -, hafter⟩ :=
    Place.start_unit isName_dynamicColumnsClass (.inr (isGroup_blockText columns))
  have hunits : ∀ pair ∈ blockUnits columns, IsUnit pair.2 := by
    rw [blockUnits, List.forall_mem_map]
    intro column _
    exact column.2.isUnit_render.1
  have hnames : ((blockUnits columns).map Prod.fst).Nodup := by
    rw [blockUnits, List.map_map]
    exact h.nodup
  -- The block is a class name of its own, and its group holds the columns.
  have hunread : (Place.start (blockText columns)).skipBlanks.afterName.unread =
      listText ((blockUnits columns).map namedText) ++ [] := by
    rw [blockText, hskip, hafter, List.append_nil, blockUnits, List.map_map]
    rfl
  obtain ⟨q, hq⟩ := Scan.namedArguments_of_isUnit hunits hnames hunread
  rw [readDynamicColumns, hq]

/-- A written block is read back. -/
theorem outcome_readDynamicColumns {columns : List (String × Expr)} (h : WritableBlock columns)
    {sink : Sink} (hsink : sink.Accepts) :
    (readDynamicColumns .hexDump sink (blockText columns)).outcome =
      .ok (blockTypes (some columns)) := by
  have heach := Reading.outcome_each_map (CqlType.ofChars .hexDump sink)
    (Bindings.values_map Expr.render columns)
    fun column hcolumn => outcome_ofChars_render (h.distinctFields column hcolumn) hsink
  -- As for the fields of a user-defined type, names and types are read apart.
  rw [readDynamicColumns_blockText h]
  refine (Reading.outcome_bind_of_ok heach _).trans ?_
  simp [Bindings.names, blockUnits, blockTypes, List.zip_map']

/-- Components and dynamic columns that are read apart make a comparator. -/
theorem outcome_ofUnits {α : Type} {as : List α} {text : α → List Char} {type : α → CqlType}
    {sink : Sink} (hread : ∀ a ∈ as, (CqlType.ofChars .hexDump sink (text a)).outcome =
      .ok (type a)) {block : Option (List (String × Expr))}
    (hblock : ∀ columns ∈ block, WritableBlock columns) (hsink : sink.Accepts) :
    (ofUnits .hexDump sink (as.map text) (block.map blockText)).outcome =
      .ok ⟨true, as.map fun a => ⟨type a, isReversed (text a)⟩, blockTypes block⟩ := by
  have heach := Reading.outcome_each_map (CqlType.ofChars .hexDump sink) rfl hread
  -- There is one direction for each type, so that the lengths agree.
  have hlists : ofLists true (as.map type) ((as.map text).map isReversed) (blockTypes block) =
      .ok ⟨true, as.map fun a => ⟨type a, isReversed (text a)⟩, blockTypes block⟩ := by
    rw [ofLists, if_pos (by simp), List.map_map, List.zipWith_map]
    simp
  have hrest : (do
      let types ← Reading.each (as.map text) fun unit _ => CqlType.ofChars .hexDump sink unit
      checked (ofLists true types ((as.map text).map isReversed) (blockTypes block))).outcome =
        .ok ⟨true, as.map fun a => ⟨type a, isReversed (text a)⟩, blockTypes block⟩ := by
    rw [Reading.outcome_bind_of_ok heach, hlists]
    rfl
  cases block with
  | none => exact (Reading.outcome_bind_of_ok (Reading.outcome_pure []) _).trans hrest
  | some columns =>
    have hcolumns := outcome_readDynamicColumns (hblock columns rfl) hsink
    exact (Reading.outcome_bind_of_ok hcolumns _).trans hrest

/-- A written composite is read from its components and its block. Without a block the last
component must not be taken for one. -/
theorem ofChars_compositeText {α : Type} {as : List α} {text : α → List Char}
    (hunits : ∀ a ∈ as, IsUnit (text a) ∧ text a ≠ []) (block : Option (List (String × Expr)))
    (hne : as ≠ []) (hlast : block = none → ∀ a ∈ as.getLast?, isDynamicColumns (text a) = false)
    (sink : Sink) : ofChars .hexDump sink (compositeText (as.map text) block) =
      ofUnits .hexDump sink (as.map text) (block.map blockText) := by
  -- All units of the composite may be written: the components, and the block if there is one.
  have hall : ∀ u ∈ as.map text ++ (block.map blockText).toList, IsUnit u ∧ u ≠ [] := by
    rw [List.forall_mem_append, List.forall_mem_map]
    refine ⟨hunits, fun u hu => ?_⟩
    cases block with
    | none => simp at hu
    | some columns =>
      obtain rfl := List.mem_singleton.1 hu
      exact isUnit_blockText columns
  have hgroup := isGroup_listText fun u hu => (hall u hu).1.balanced
  obtain ⟨hskip, hname, hafter⟩ := Place.start_unit isName_compositeClass (.inr hgroup)
  have hcomposite : ClassName.isComposite compositeClass = true := by decide +kernel
  have harguments := Scan.arguments_of_isUnit hall (hafter.trans (List.append_nil _).symm)
  have hnonempty : (as.map text ++ (block.map blockText).toList).isEmpty = false := by
    simp [List.isEmpty_eq_false_iff, hne]
  simp only [ofChars, compositeText, hskip, hname, hcomposite, if_true, harguments, hnonempty,
    Bool.false_eq_true, if_false]
  cases block with
  | none =>
    -- The last component is looked at, and is no block.
    obtain ⟨last, hmem⟩ := Option.isSome_iff_exists.1 (List.getLast?_isSome.2 hne)
    have hlastUnit : lastUnit (as.map text ++ []) = .ok (text last) := by
      rw [lastUnit, List.append_nil, List.getLast?_map, hmem, Option.map_some]
    rw [Option.map_none, Option.toList_none, hlastUnit]
    refine (Reading.pure_bind (text last) _).trans ?_
    rw [if_neg (by simp [hlast rfl last hmem]), List.append_nil]
  | some columns =>
    -- The block is the last unit, and what is left of the list are the components.
    have hlastUnit : lastUnit (as.map text ++ [blockText columns]) = .ok (blockText columns) := by
      rw [lastUnit, List.getLast?_concat]
    rw [Option.map_some, Option.toList_some, hlastUnit]
    refine (Reading.pure_bind (blockText columns) _).trans ?_
    rw [if_pos (isDynamicColumns_blockText columns), List.dropLast_concat]

/-- A composite is read back if its components are. Without a block the last component must not
be taken for one. -/
theorem outcome_ofChars_compositeText {α : Type} {as : List α} {text : α → List Char}
    {type : α → CqlType} {sink : Sink}
    (hunits : ∀ a ∈ as, IsUnit (text a) ∧ text a ≠ [])
    (hread : ∀ a ∈ as, (CqlType.ofChars .hexDump sink (text a)).outcome = .ok (type a))
    {block : Option (List (String × Expr))} (hblock : ∀ columns ∈ block, WritableBlock columns)
    (hne : as ≠ []) (hlast : block = none → ∀ a ∈ as.getLast?, isDynamicColumns (text a) = false)
    (hsink : sink.Accepts) :
    (ofChars .hexDump sink (compositeText (as.map text) block)).outcome =
      .ok ⟨true, as.map fun a => ⟨type a, isReversed (text a)⟩, blockTypes block⟩ := by
  rw [ofChars_compositeText hunits block hne hlast]
  exact outcome_ofUnits hread hblock hsink

/-- Reading undoes writing: a composite of written expressions is read with the types and the
directions of its components and with its dynamic columns, all in the order in which they were
written. -/
theorem ofClassName_compositeText (es : List Expr) (hne : es ≠ [])
    (hes : ∀ e ∈ es, e.DistinctFields) (block : Option (List (String × Expr)))
    (hblock : ∀ columns ∈ block, WritableBlock columns)
    (hlast : block = none → ∀ e ∈ es.getLast?, ¬ dynamicColumnsClass <+: e.render) (sink : Sink)
    (hsink : sink.Accepts) :
    ∃ comparator,
      (ofClassName .hexDump sink
        (String.ofList (compositeText (es.map Expr.render) block))).outcome = .ok comparator ∧
      comparator.isComposite = true ∧
      comparator.types = es.map Expr.type ∧
      comparator.reversedFlags = es.map Expr.isReversed ∧
      comparator.clusteringOrder =
        es.map (fun e => if e.isReversed then .descending else .ascending) ∧
      comparator.dynamicColumns = blockTypes block := by
  have hunits : ∀ e ∈ es, IsUnit e.render ∧ e.render ≠ [] := fun e _ => e.isUnit_render
  have hread : ∀ e ∈ es, (CqlType.ofChars .hexDump sink e.render).outcome = .ok e.type :=
    fun e he => outcome_ofChars_render (hes e he) hsink
  have hnotBlock : block = none → ∀ e ∈ es.getLast?, isDynamicColumns e.render = false :=
    fun hnone e he => isDynamicColumns_render (hlast hnone e he)
  have hcomposite := outcome_ofChars_compositeText hunits hread hblock hne hnotBlock hsink
  rw [ofClassName, String.toList_ofList]
  refine ⟨_, hcomposite, rfl, ?_, ?_, ?_, rfl⟩
  · rw [types, List.map_map]
    rfl
  · rw [reversedFlags, List.map_map]
    exact List.map_congr_left fun e _ => e.isReversed_render
  · rw [clusteringOrder, List.map_map]
    refine List.map_congr_left fun e _ => ?_
    simp only [Function.comp_apply, Component.clusteringOrder, e.isReversed_render]

/-- An integer and a reversed tuple, with a block of one dynamic column. -/
theorem ofClassName_compositeText_reversed :
    ∃ comparator,
      (ofClassName .hexDump .log (String.ofList (compositeClass ++ listText
        [nativeClass .int, reversedClass ++ listText [tupleClass ++ listText [nativeClass .text]],
          dynamicColumnsClass ++ listText [namedText ("tags", frozenClass ++ listText
            [CollectionKind.set.className ++ listText [nativeClass .text]])]]))).outcome =
        .ok comparator ∧
      comparator.isComposite = true ∧
      comparator.types = [.native .int, .tuple [.native .text]] ∧
      comparator.reversedFlags = [false, true] ∧
      comparator.clusteringOrder = [.ascending, .descending] ∧
      comparator.dynamicColumns = [("tags", .set true (.native .text))] :=
  ofClassName_compositeText
    [.mk .none (.native .int), .mk .reversed (.tuple [.mk .none (.native .text)])] (by simp)
    (by simp)
    (some [("tags", .mk .frozen (.set (.mk .none (.native .text))))])
    (by
      rintro columns ⟨⟩
      exact ⟨by simp, by simp⟩)
    (by simp) .log Sink.accepts_log

end SchemaTypes.Comparator
