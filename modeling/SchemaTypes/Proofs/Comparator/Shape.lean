import SchemaTypes.Proofs.Comparator.Components
import SchemaTypes.Proofs.CqlType.Shape

/-!
# The shape of the comparators that are read

The components of a composite and the types of its dynamic columns are read from units, so that they
are well-shaped. Each dynamic column is named once. A class name that is no composite is read as a
type, with the one exception that there is for types.

## Main results

* `wellShaped_of_ofUnits`: the components of a composite.
* `shaped_of_ofChars`: the dynamic columns of a comparator.
* `ofClassName_wellShaped`: types and comparators of class names.
-/

namespace SchemaTypes.Comparator

open ClassName CqlType

variable {decoder : Decoder} {sink : Sink}

/-- The dynamic columns of a block have distinct names and well-shaped types. -/
theorem shaped_of_readDynamicColumns {block : List Char} {columns : Bindings CqlType}
    (h : (readDynamicColumns decoder sink block).outcome = .ok columns) :
    columns.names.Nodup ∧ ∀ t ∈ columns.values, t.WellShaped := by
  obtain ⟨bindings, q, hbindings, hnames, htypes⟩ := exists_of_readDynamicColumns h
  obtain ⟨hnodup, hunits⟩ := Scan.captures_of_namedArguments hbindings
  rw [hnames]
  exact ⟨hnodup, wellShaped_of_forall₂ (htypes.imp fun _ _ => shapedFrom_of_ofChars) hunits⟩

theorem shaped_of_readBlock {block? : Option (List Char)} {columns : Bindings CqlType}
    (h : (readBlock decoder sink block?).outcome = .ok columns) :
    columns.names.Nodup ∧ ∀ t ∈ columns.values, t.WellShaped := by
  cases block? with
  | none =>
    cases h
    exact ⟨List.nodup_nil, by simp [Bindings.values]⟩
  | some block => exact shaped_of_readDynamicColumns h

/-- The components of a composite have well-shaped types. -/
theorem wellShaped_of_ofUnits {units : List (List Char)} {block? : Option (List Char)}
    {comparator : Comparator} (hunits : ∀ u ∈ units, IsUnit u)
    (h : (ofUnits decoder sink units block?).outcome = .ok comparator) :
    ∀ t ∈ comparator.types, t.WellShaped :=
  wellShaped_of_forall₂ ((forall₂_types h).imp fun _ _ => shapedFrom_of_ofChars) hunits

/-- The dynamic columns of a comparator have distinct names and well-shaped types. -/
theorem shaped_of_ofChars {className : List Char} {comparator : Comparator}
    (h : (ofChars decoder sink className).outcome = .ok comparator) :
    comparator.dynamicColumns.names.Nodup ∧
      ∀ t ∈ comparator.dynamicColumns.values, t.WellShaped := by
  cases hcomposite : ClassName.isComposite (Place.start className).skipBlanks.name with
  | true =>
    obtain ⟨units, p, harguments, -, hunits⟩ := exists_of_outcome_ofChars hcomposite h
    exact shaped_of_readBlock (readBlock_of_ofUnits hunits)
  | false =>
    obtain ⟨type, -, rfl⟩ := (outcome_ofChars_eq_ok_iff hcomposite).1 h
    exact ⟨List.nodup_nil, by simp [Bindings.values]⟩

/-- Types and comparators are well-shaped at every depth, for every decoder and every sink: their
user-defined types are frozen and have distinct field names, their unknown classes have balanced
parentheses and no blank in front, and the dynamic columns have distinct names. The one exception
is an unknown class that is the whole class name. -/
theorem ofClassName_wellShaped (className : String) (decoder : Decoder) (sink : Sink) :
    (∀ t, (CqlType.ofClassName decoder sink className).outcome = .ok t →
      t.WellShaped ∨ t = .custom className) ∧
    ∀ comparator, (ofClassName decoder sink className).outcome = .ok comparator →
      comparator.dynamicColumns.names.Nodup ∧
      (∀ t ∈ comparator.dynamicColumns.values, t.WellShaped) ∧
      ∀ t ∈ comparator.types,
        t.WellShaped ∨ comparator.isComposite = false ∧ t = .custom className := by
  have htype {t : CqlType} (h : (CqlType.ofChars decoder sink className.toList).outcome = .ok t) :
      t.WellShaped ∨ t = .custom className := by
    simpa only [ShapedFrom, String.ofList_toList] using shapedFrom_of_ofChars h
  refine ⟨fun t h => htype h, fun comparator h => ?_⟩
  obtain ⟨hnames, hvalues⟩ := shaped_of_ofChars h
  refine ⟨hnames, hvalues, fun t ht => ?_⟩
  cases hcomposite : ClassName.isComposite (Place.start className.toList).skipBlanks.name with
  | true =>
    obtain ⟨units, p, harguments, -, hunits⟩ := exists_of_outcome_ofChars hcomposite h
    refine .inl (wellShaped_of_ofUnits (fun u hu => ?_) hunits t ht)
    exact Scan.isUnit_of_mem_arguments harguments (mem_of_mem_componentUnits hu)
  | false =>
    obtain ⟨type, hread, rfl⟩ := (outcome_ofChars_eq_ok_iff hcomposite).1 h
    obtain rfl : t = type := by simpa [types] using ht
    exact (htype hread).imp_right fun hcustom => ⟨rfl, hcustom⟩

/-- A decoder gives one name for all texts, so that one field and one dynamic column are left; an
unknown class inside a wrapper is kept without the blank in front of it. -/
theorem ofClassName_wellShaped_merged :
    let decoder : Decoder := fun _ => .ok "n"
    let frozenText := "org.apache.cassandra.db.marshal.FrozenType( X(a ))"
    let compositeText := "org.apache.cassandra.db.marshal.CompositeType(" ++
      "org.apache.cassandra.db.marshal.UserType(ks,61,62:X,63:Y(a))," ++
      "org.apache.cassandra.db.marshal.ColumnToCollectionType(61:X,62: Y))"
    let columns : Bindings CqlType := [("n", .custom "Y")]
    let userType : CqlType := .udt true "ks" "n" [("n", .custom "Y(a)")]
    let comparator : Comparator := ⟨true, [⟨userType, false⟩], columns⟩
    ((CqlType.ofClassName decoder .log frozenText).outcome = .ok (.custom "X(a )") ∧
      ((custom "X(a )").WellShaped ∨ custom "X(a )" = .custom frozenText)) ∧
    (ofClassName decoder .log compositeText).outcome = .ok comparator ∧
      columns.names.Nodup ∧ (∀ t ∈ columns.values, t.WellShaped) ∧
      ∀ t ∈ comparator.types,
        t.WellShaped ∨ comparator.isComposite = false ∧ t = .custom compositeText := by
  intro decoder frozenText compositeText columns userType comparator
  have htype : (CqlType.ofClassName decoder .log frozenText).outcome = .ok (.custom "X(a )") := by
    decide +kernel
  have hcomparator : (ofClassName decoder .log compositeText).outcome = .ok comparator := by
    decide +kernel
  exact ⟨⟨htype, (ofClassName_wellShaped frozenText decoder .log).1 _ htype⟩, hcomparator,
    (ofClassName_wellShaped compositeText decoder .log).2 _ hcomparator⟩

end SchemaTypes.Comparator
