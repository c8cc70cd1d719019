import SchemaTypes.Proofs.Bindings
import SchemaTypes.Proofs.Comparator.Shape

/-!
# Which order counts when results are compared

Dynamic columns and the fields of user-defined types are written in the same way, as units bound to
names, and are kept in the order in which they were written. They are compared in different ways:
dynamic columns as a mapping, in which this order does not count, and fields as a sequence, in which
it does.

## Main results

* `same_iff`: comparators with distinct names of dynamic columns are the same if and only if they
  hold the same, the dynamic columns in whatever order.
* `beq_type_iff_of_perm`: user-defined types with the same fields are equal if and only if these
  stand in the same order.
* `same_and_beq_of_reordered`: both, for what is read from class names.
-/

namespace SchemaTypes.Comparator

open ClassName CqlType

/-- Comparators are the same if and only if they are of the same kind, have the same components and
the same dynamic columns, in whatever order these stand. -/
theorem same_iff {a b : Comparator} (ha : a.dynamicColumns.names.Nodup)
    (hb : b.dynamicColumns.names.Nodup) :
    a.same b = true ↔ a.isComposite = b.isComposite ∧ a.components = b.components ∧
      a.dynamicColumns.Perm b.dynamicColumns := by
  simp only [same, Bool.and_eq_true, beq_iff_eq, Bindings.sameMapping_iff_perm ha hb, and_assoc]

theorem names_blockTypes (columns : List (String × Expr)) :
    (blockTypes (some columns)).names = columns.map Prod.fst :=
  Bindings.names_map Expr.type columns

theorem WritableBlock.of_perm {columns columns' : List (String × Expr)}
    (h : WritableBlock columns) (hperm : columns.Perm columns') : WritableBlock columns' where
  nodup := (hperm.map Prod.fst).nodup_iff.1 h.nodup
  distinctFields column hcolumn := h.distinctFields column (hperm.mem_iff.2 hcolumn)

variable {wrapper : Layer.Wrapper} {keyspace : Keyspace} {name : String}
  {fields fields' : List (String × Expr)}

theorem distinctFields_of_perm
    (h : (Expr.mk wrapper (.userType keyspace name fields)).DistinctFields)
    (hperm : fields.Perm fields') :
    (Expr.mk wrapper (.userType keyspace name fields')).DistinctFields := by
  rw [Expr.distinctFields_mk] at h ⊢
  exact ⟨(hperm.map Prod.fst).nodup_iff.1 h.1,
    fun e he => h.2 e ((hperm.map Prod.snd).mem_iff.2 he)⟩

/-- User-defined types with the same fields are equal if and only if the fields stand in the same
order. -/
theorem beq_type_iff_of_perm
    (h : (Expr.mk wrapper (.userType keyspace name fields)).DistinctFields)
    (hperm : fields.Perm fields') :
    (Expr.mk wrapper (.userType keyspace name fields)).type.beq
      (Expr.mk wrapper (.userType keyspace name fields')).type = true ↔ fields = fields' := by
  have hnames : (Bindings.names fields).Nodup := ((Expr.distinctFields_mk _ _).1 h).1
  rw [beq_iff]
  refine ⟨fun hsame => ?_, fun hfields => hfields ▸ rfl⟩
  -- Equal types have the same names in the same order, which tell the order of the fields.
  have hfields := congrArg CqlType.fieldNames hsame
  simp only [Expr.type_mk, Bare.mapParts, Bare.type, fieldNames, List.map_map] at hfields
  exact Bindings.eq_of_perm hnames hperm hfields

/-- The order of the dynamic columns of a composite is kept, and does not count when composites are
compared: whatever was read is the same if and only if it is of the same kind, with the same
components and the same dynamic columns in some order. The order of the fields of a user-defined
type counts. -/
theorem same_and_beq_of_reordered (sink : Sink) (hsink : sink.Accepts) :
    (∀ (es : List Expr) (columns columns' : List (String × Expr)), es ≠ [] →
      (∀ e ∈ es, e.DistinctFields) → WritableBlock columns → columns.Perm columns' →
      ∃ a b,
        (ofClassName .hexDump sink
          (String.ofList (compositeText (es.map Expr.render) (some columns)))).outcome = .ok a ∧
        (ofClassName .hexDump sink
          (String.ofList (compositeText (es.map Expr.render) (some columns')))).outcome = .ok b ∧
        a.same b = true ∧
        a.dynamicColumns = columns.map (fun column => (column.1, column.2.type)) ∧
        b.dynamicColumns = columns'.map (fun column => (column.1, column.2.type))) ∧
    (∀ (decoder : Decoder) (className className' : String) (a b : Comparator),
      (ofClassName decoder sink className).outcome = .ok a →
      (ofClassName decoder sink className').outcome = .ok b →
      (a.same b = true ↔ a.isComposite = b.isComposite ∧ a.components = b.components ∧
        a.dynamicColumns.Perm b.dynamicColumns)) ∧
    ∀ (wrapper : Layer.Wrapper) (keyspace : Keyspace) (name : String)
      (fields fields' : List (String × Expr)),
      (Expr.mk wrapper (.userType keyspace name fields)).DistinctFields → fields.Perm fields' →
      ∃ t t',
        (CqlType.ofClassName .hexDump sink
          (String.ofList (Expr.mk wrapper (.userType keyspace name fields)).render)).outcome =
            .ok t ∧
        (CqlType.ofClassName .hexDump sink
          (String.ofList (Expr.mk wrapper (.userType keyspace name fields')).render)).outcome =
            .ok t' ∧
        (t.beq t' = true ↔ fields = fields') := by
  refine ⟨?_, ?_, ?_⟩
  · intro es columns columns' hne hes hcolumns hperm
    -- Each order of the columns is a block that can be written, and is read back as it was written.
    have hread (block : List (String × Expr)) (hblock : WritableBlock block) :
        (ofClassName .hexDump sink
          (String.ofList (compositeText (es.map Expr.render) (some block)))).outcome =
          .ok ⟨true, es.map fun e => ⟨e.type, isReversed e.render⟩, blockTypes (some block)⟩ := by
      rw [ofClassName, String.toList_ofList]
      refine outcome_ofChars_compositeText (fun e _ => e.isUnit_render)
        (fun e he => outcome_ofChars_render (hes e he) hsink) ?_ hne (by simp) hsink
      rintro _ ⟨⟩
      exact hblock
    have hnames {block : List (String × Expr)} (hblock : WritableBlock block) :
        (blockTypes (some block)).names.Nodup := by
      rw [names_blockTypes]
      exact hblock.nodup
    have hcolumns' := hcolumns.of_perm hperm
    refine ⟨_, _, hread columns hcolumns, hread columns' hcolumns', ?_, rfl, rfl⟩
    exact (same_iff (hnames hcolumns) (hnames hcolumns')).2 ⟨rfl, rfl, hperm.map _⟩
  · intro decoder className className' a b ha hb
    exact same_iff (shaped_of_ofChars ha).1 (shaped_of_ofChars hb).1
  · intro wrapper keyspace name fields fields' hfields hperm
    have hread (e : Expr) (he : e.DistinctFields) :
        (CqlType.ofClassName .hexDump sink (String.ofList e.render)).outcome = .ok e.type := by
      rw [CqlType.ofClassName, String.toList_ofList]
      exact outcome_ofChars_render he hsink
    exact ⟨_, _, hread _ hfields, hread _ (distinctFields_of_perm hfields hperm),
      beq_type_iff_of_perm hfields hperm⟩

/-- Two dynamic columns behind one component, written in both orders and with their types exchanged,
and two fields of one type, written in both orders. -/
theorem same_and_beq_of_reordered_pair :
    let read (columns : List (String × List Char)) :=
      (ofClassName .hexDump .log (String.ofList (compositeClass ++ listText [nativeClass .int,
        dynamicColumnsClass ++ listText (columns.map namedText)]))).outcome
    let readFields (fields : List (String × List Char)) :=
      (CqlType.ofClassName .hexDump .log (String.ofList (userTypeClass ++ listText
        ("ks".toList :: (Text.HexDump.encode "p").toList :: fields.map namedText)))).outcome
    (∃ a b, read [("a", nativeClass .int), ("b", nativeClass .text)] = .ok a ∧
      read [("b", nativeClass .text), ("a", nativeClass .int)] = .ok b ∧
      a.same b = true ∧ a.dynamicColumns = [("a", .native .int), ("b", .native .text)] ∧
      b.dynamicColumns = [("b", .native .text), ("a", .native .int)]) ∧
    (∃ a b, read [("a", nativeClass .int), ("b", nativeClass .text)] = .ok a ∧
      read [("a", nativeClass .text), ("b", nativeClass .int)] = .ok b ∧ a.same b = false) ∧
    ∃ t t', readFields [("x", nativeClass .int), ("y", nativeClass .int)] = .ok t ∧
      readFields [("y", nativeClass .int), ("x", nativeClass .int)] = .ok t' ∧
      t.beq t' = false := by
  intro read readFields
  obtain ⟨hcolumns, hsame, hfields⟩ := same_and_beq_of_reordered .log Sink.accepts_log
  let es : List Expr := [.mk .none (.native .int)]
  let columns (n m : NativeType) : List (String × Expr) :=
    [("a", .mk .none (.native n)), ("b", .mk .none (.native m))]
  have hone (n : NativeType) : (Expr.mk .none (.native n)).DistinctFields := by
    simp
  have hblock (n m : NativeType) : WritableBlock (columns n m) :=
    ⟨by simp [columns], by simp [columns, hone]⟩
  refine ⟨?_, ?_, ?_⟩
  · exact hcolumns es (columns .int .text) (columns .int .text).reverse (by simp [es])
      (by simp [es, hone]) (hblock _ _) (.swap _ _ _)
  · obtain ⟨a, -, ha, -, -, hacolumns, -⟩ := hcolumns es (columns .int .text) _ (by simp [es])
      (by simp [es, hone]) (hblock _ _) (.refl _)
    obtain ⟨b, -, hb, -, -, hbcolumns, -⟩ := hcolumns es (columns .text .int) _ (by simp [es])
      (by simp [es, hone]) (hblock _ _) (.refl _)
    refine ⟨a, b, ha, hb, Bool.eq_false_iff.2 fun h => ?_⟩
    -- The names are the same and so are the types, but no pair is.
    have hperm := ((hsame .hexDump _ _ a b ha hb).1 h).2.2
    rw [hacolumns, hbcolumns] at hperm
    exact absurd (hperm.subset (.head _)) (by decide)
  · obtain ⟨t, t', ht, ht', hbeq⟩ := hfields .none ⟨"ks".toList, by decide⟩ "p"
      [("x", .mk .none (.native .int)), ("y", .mk .none (.native .int))]
      [("y", .mk .none (.native .int)), ("x", .mk .none (.native .int))]
      (by simp) (.swap _ _ _)
    exact ⟨t, t', ht, ht', Bool.eq_false_iff.2 fun h => absurd (hbeq.1 h) (by simp)⟩

end SchemaTypes.Comparator
