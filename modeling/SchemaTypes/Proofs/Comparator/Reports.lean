import SchemaTypes.Proofs.Comparator.RoundTrip
import SchemaTypes.Proofs.CqlType.Reports

/-!
# What is reported about a written composite

Reading a composite reports what there is to say about the types of its dynamic columns, in their
order, and then what there is to say about its components, in theirs.

## Main definitions

* `blockEvents`: the events of a block of dynamic columns.

## Main results

* `readDynamicColumns_collect`, `events_ofUnits`: blocks and composites are read with their events.
* `events_ofClassName`: the events of written expressions and composites.
-/

namespace SchemaTypes.Comparator

open ClassName CqlType

/-- What is reported about the types of the dynamic columns of an optional block, in their
order. -/
def blockEvents (block : Option (List (String × Expr))) : List Event :=
  (block.getD []).flatMap fun column => column.2.events

/-- A written block is read with the events of its columns. -/
theorem readDynamicColumns_collect {columns : List (String × Expr)} (h : WritableBlock columns) :
    readDynamicColumns .hexDump .collect (blockText columns) =
      ⟨blockEvents (some columns), .ok (blockTypes (some columns))⟩ := by
  have heach := Reading.each_map_of_eq (CqlType.ofChars .hexDump .collect)
    (Bindings.values_map Expr.render columns)
    fun column hcolumn => ofChars_render (h.distinctFields column hcolumn)
  rw [readDynamicColumns_blockText h, Reading.bind_pure_eq_map, blockUnits, heach]
  simp [Except.map, blockEvents, blockTypes, Bindings.names, List.zip_map']

/-- Components and dynamic columns are read with their events, those of the columns first. -/
theorem events_ofUnits {es : List Expr} (hes : ∀ e ∈ es, e.DistinctFields)
    {block : Option (List (String × Expr))} (hblock : ∀ columns ∈ block, WritableBlock columns) :
    (ofUnits .hexDump .collect (es.map Expr.render) (block.map blockText)).events =
      blockEvents block ++ es.flatMap Expr.events := by
  have heach := Reading.each_map_of_eq (CqlType.ofChars .hexDump .collect) rfl
    fun e he => ofChars_render (hes e he)
  -- Putting the comparator together reports nothing.
  have hrest (dynamicColumns : Bindings CqlType) : (do
      let types ← Reading.each (es.map Expr.render) fun unit _ =>
        CqlType.ofChars .hexDump .collect unit
      checked (ofLists true types ((es.map Expr.render).map isReversed) dynamicColumns)).events =
        es.flatMap Expr.events := by
    rw [Reading.bind_of_eq heach]
    exact List.append_nil _
  cases block with
  | none => exact (congrArg Reading.events (Reading.pure_bind [] _)).trans (hrest [])
  | some columns =>
    refine (congrArg Reading.events
      (Reading.bind_of_eq (readDynamicColumns_collect (hblock columns rfl)) _)).trans ?_
    exact congrArg (blockEvents (some columns) ++ ·) (hrest _)

/-- What is reported about written expressions and composites. Each class is reported before the
classes in its arguments, and these from left to right; there is one diagnostic for each freezing
wrapper around something other than a collection. The events of dynamic columns come before those
of components. -/
theorem events_ofClassName :
    (∀ e : Expr, e.DistinctFields →
      (CqlType.ofClassName .hexDump .collect (String.ofList e.render)).events = e.events ∧
        e.events.countP Event.isDiagnosed = e.frozenNonCollections) ∧
    ∀ (es : List Expr) (block : Option (List (String × Expr))), es ≠ [] →
      (∀ e ∈ es, e.DistinctFields) → (∀ columns ∈ block, WritableBlock columns) →
      (block = none → ∀ e ∈ es.getLast?, ¬ dynamicColumnsClass <+: e.render) →
      (ofClassName .hexDump .collect
        (String.ofList (compositeText (es.map Expr.render) block))).events =
          blockEvents block ++ es.flatMap Expr.events := by
  constructor
  · intro e he
    rw [CqlType.ofClassName, String.toList_ofList, ofChars_render he]
    exact ⟨rfl, e.countP_events⟩
  · intro es block hne hes hblock hlast
    rw [ofClassName, String.toList_ofList, ofChars_compositeText (fun e _ => e.isUnit_render) block
      hne fun hnone e he => isDynamicColumns_render (hlast hnone e he)]
    exact events_ofUnits hes hblock

/-- A frozen tuple of a frozen native and a frozen list, and a composite of a set of unknown
elements with a frozen native as dynamic column. -/
theorem events_ofClassName_frozen_tuple :
    (CqlType.ofClassName .hexDump .collect (String.ofList (frozenClass ++ listText
      [tupleClass ++ listText [frozenClass ++ listText [nativeClass .int],
        frozenClass ++ listText [CollectionKind.list.className ++ listText
          [nativeClass .text]]]]))).events =
      [.diagnosed .frozenNonCollection, .diagnosed .frozenNonCollection] ∧
    (ofClassName .hexDump .collect (String.ofList (compositeClass ++ listText
      [CollectionKind.set.className ++ listText ["Foo".toList],
        dynamicColumnsClass ++ listText [namedText ("c", frozenClass ++ listText
          [nativeClass .int])]]))).events =
      [.diagnosed .frozenNonCollection, .keptVerbatim "Foo"] := by
  have htype := events_ofClassName.1 (.mk .frozen (.tuple [.mk .frozen (.native .int),
      .mk .frozen (.list (.mk .none (.native .text)))]))
    (by simp)
  have hcomposite := events_ofClassName.2
    [.mk .none (.set (.mk .none (.unknown ⟨"Foo".toList, [], by decide, by decide, .inl rfl,
      by decide, fun t => by cases t <;> decide⟩)))]
    (some [("c", .mk .frozen (.native .int))]) (by simp)
    (by simp)
    (by
      rintro columns ⟨⟩
      exact ⟨by simp, by simp⟩)
    (by simp)
  exact ⟨htype.1, hcomposite⟩

end SchemaTypes.Comparator
