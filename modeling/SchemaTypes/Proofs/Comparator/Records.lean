import SchemaTypes.Proofs.Comparator.Components
import SchemaTypes.Proofs.CqlType.Records

/-!
# Records of the unknown classes in a comparator

The dynamic columns of a composite are read before its components, and so are the unknown classes in
their types. Each of them is logged once, and nothing else is logged for debugging.

## Main definitions

* `customs`: the unknown classes in a comparator.

## Main results

* `logs_ofChars`: the records of a comparator.
* `debugLog_ofClassName`: the records of types and comparators.
-/

namespace SchemaTypes.Comparator

open ClassName CqlType

/-- The unknown classes in a comparator: those in the types of the dynamic columns, and then those
in the types of the components. -/
def customs (comparator : Comparator) : List String :=
  comparator.dynamicColumns.values.flatMap CqlType.customs ++
    comparator.types.flatMap CqlType.customs

variable (decoder : Decoder) (sink : Sink)

theorem logs_each (units : List (List Char)) :
    Reading.Logs (fun types => types.flatMap CqlType.customs)
      (Reading.each units fun unit _ => CqlType.ofChars decoder sink unit) :=
  .each fun unit _ => CqlType.logs_ofChars decoder sink unit

/-- The dynamic columns are read with the records of each, in their order. -/
theorem logs_readBlock (block? : Option (List Char)) :
    Reading.Logs (fun columns => columns.values.flatMap CqlType.customs)
      (readBlock decoder sink block?) := by
  cases block? with
  | none =>
    intro columns hcolumns
    cases hcolumns
    rfl
  | some block =>
    change Reading.Logs _ (readDynamicColumns decoder sink block)
    rw [readDynamicColumns]
    split
    · rintro columns ⟨⟩
    · refine .map (logs_each decoder sink _) fun types htypes => ?_
      exact congrArg (List.flatMap CqlType.customs) (names_values_of_outcome_each htypes).2

/-- The records of the dynamic columns come before those of the components. -/
theorem logs_ofUnits (units : List (List Char)) (block? : Option (List Char)) :
    Reading.Logs customs (ofUnits decoder sink units block?) := by
  have htypes (columns : Bindings CqlType) {types : List CqlType}
      (h : (Reading.each units fun unit _ => CqlType.ofChars decoder sink unit).outcome =
        .ok types) :
      Comparator.types ⟨true, types.zipWith Component.mk (units.map isReversed), columns⟩ =
        types := by
    apply types_zipWith
    rw [Reading.length_of_outcome_each h, List.length_map]
  have hcomponents (columns : Bindings CqlType) :
      Reading.Logs (fun comparator => comparator.types.flatMap CqlType.customs) (do
        let types ← Reading.each units fun unit _ => CqlType.ofChars decoder sink unit
        pure (Comparator.mk true (types.zipWith Component.mk (units.map isReversed)) columns)) :=
    .map (logs_each decoder sink units) fun types h => by rw [htypes columns h]
  rw [ofUnits_eq_bind]
  refine .bind (logs_readBlock decoder sink block?) (fun columns _ => hcomponents columns) ?_
  intro columns comparator _ hcomparator
  obtain ⟨types, -, hcomparator⟩ := Reading.outcome_bind_eq_ok_iff.1 hcomparator
  cases hcomparator
  rfl

/-- If a comparator is read, the log has one record for each unknown class in it. -/
theorem logs_ofChars (className : List Char) :
    Reading.Logs customs (ofChars decoder sink className) := by
  intro comparator h
  cases hcomposite : ClassName.isComposite (Place.start className).skipBlanks.name with
  | true =>
    obtain ⟨units, p, harguments, hne, hunits⟩ := exists_of_outcome_ofChars hcomposite h
    rw [ofChars_of_arguments hcomposite harguments, if_neg hne]
    exact logs_ofUnits decoder sink _ _ comparator hunits
  | false =>
    -- The type is the only component, and there are no dynamic columns.
    rw [ofChars] at h ⊢
    simp only [hcomposite, Bool.false_eq_true, if_false] at h ⊢
    have hsingle : Reading.Logs customs (do
        let type ← CqlType.ofChars decoder sink className
        checked (single type (isReversed (Place.start className).skipBlanks.name))) :=
      .map (CqlType.logs_ofChars decoder sink className) fun type _ =>
        List.flatMap_singleton CqlType.customs type
    exact hsingle comparator h

/-- Each unknown class that is kept is logged once, and nothing else is logged for debugging: if a
type or a comparator is read, the records carry the texts of the unknown classes in it, in the
order in which they stand there from left to right, those in the types of dynamic columns before
those in components. -/
theorem debugLog_ofClassName (className : String) :
    (∀ t, (CqlType.ofClassName decoder sink className).outcome = .ok t →
      (CqlType.ofClassName decoder sink className).debugLog = t.customs.map .keptVerbatim) ∧
    ∀ comparator, (ofClassName decoder sink className).outcome = .ok comparator →
      (ofClassName decoder sink className).debugLog = comparator.customs.map .keptVerbatim :=
  ⟨CqlType.logs_ofChars decoder sink className.toList, logs_ofChars decoder sink className.toList⟩

/-- In a tuple, the type of a field is logged behind the element in front of it. In a composite, the
dynamic column is logged first, and what its name stood for before is not logged. -/
theorem debugLog_ofClassName_repeated :
    let tupleText := "org.apache.cassandra.db.marshal.TupleType(X," ++
      "org.apache.cassandra.db.marshal.UserType(ks,61," ++
      "62:org.apache.cassandra.db.marshal.FrozenType(Y)))"
    let compositeText := "org.apache.cassandra.db.marshal.CompositeType(X," ++
      "org.apache.cassandra.db.marshal.MapType(Y(a),Z)," ++
      "org.apache.cassandra.db.marshal.ColumnToCollectionType(61:V,61:W))"
    ((CqlType.ofClassName .hexDump .log tupleText).outcome =
        .ok (.tuple [.custom "X", .udt true "ks" "a" [("b", .custom "Y")]]) ∧
      (CqlType.ofClassName .hexDump .log tupleText).debugLog =
        [.keptVerbatim "X", .keptVerbatim "Y"]) ∧
    (ofClassName .hexDump .log compositeText).outcome =
        .ok ⟨true, [⟨.custom "X", false⟩, ⟨.map false (.custom "Y(a)") (.custom "Z"), false⟩],
          [("a", .custom "W")]⟩ ∧
      (ofClassName .hexDump .log compositeText).debugLog =
        [.keptVerbatim "W", .keptVerbatim "X", .keptVerbatim "Y(a)", .keptVerbatim "Z"] := by
  intro tupleText compositeText
  have htype : (CqlType.ofClassName .hexDump .log tupleText).outcome =
      .ok (.tuple [.custom "X", .udt true "ks" "a" [("b", .custom "Y")]]) := by
    decide +kernel
  have hcomparator : (ofClassName .hexDump .log compositeText).outcome =
      .ok ⟨true, [⟨.custom "X", false⟩, ⟨.map false (.custom "Y(a)") (.custom "Z"), false⟩],
        [("a", .custom "W")]⟩ := by
    decide +kernel
  exact ⟨⟨htype, (debugLog_ofClassName .hexDump .log tupleText).1 _ htype⟩, hcomparator,
    (debugLog_ofClassName .hexDump .log compositeText).2 _ hcomparator⟩

end SchemaTypes.Comparator
