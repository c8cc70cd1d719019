import SchemaTypes.Proofs.ClassName.EmptyUnits
import SchemaTypes.Proofs.Comparator.Components
import SchemaTypes.Proofs.CqlType.EmptyArguments

/-!
# Empty arguments become types

An argument that is empty is read as an unknown class without a name, as an element, a field, a
component, a dynamic column or inside a wrapper. It comes from two commas with nothing between them,
or from a colon with no type behind it, neither of which is a fault. The empty class name itself is
the one other class name whose type has such a class.

## Main definitions

* `IsColumnUnit`, `IsArgument`: the class names of dynamic columns, and those of components too.
* `ReadInside`: the class names that are read inside the class name of a comparator.

## Main results

* `exists_custom_empty_iff`: where the components and the dynamic columns have empty classes.
* `ofClassName_custom_empty_iff`: where types and comparators have them, and which lists are read
  with an empty argument.
-/

namespace SchemaTypes.Comparator

open ClassName CqlType

variable {decoder : Decoder} {sink : Sink} {className : List Char}

/-- The class names of the types of dynamic columns, from a block if there is one. -/
def IsColumnUnit (decoder : Decoder) (block? : Option (List Char)) (u : List Char) : Prop :=
  ∃ block ∈ block?, ∃ bindings q,
    Scan.namedArguments decoder (Place.start block).skipBlanks.afterName = .ok bindings q ∧
      u ∈ bindings.values

/-- The class names of the components of a composite and of the types of its dynamic columns. -/
def IsArgument (decoder : Decoder) (className u : List Char) : Prop :=
  ∃ units p, Scan.arguments (Place.start className).skipBlanks.afterName = .ok units p ∧
    (u ∈ componentUnits units ∨ IsColumnUnit decoder (block? units) u)

/-- The dynamic columns have an empty class if and only if one of their class names is empty or has
an empty one read inside it. -/
theorem exists_custom_empty_iff_of_readBlock {block? : Option (List Char)}
    {columns : Bindings CqlType} (h : (readBlock decoder sink block?).outcome = .ok columns) :
    (∃ t ∈ columns.values, custom "" ∈ t.nodes) ↔
      ∃ u, IsColumnUnit decoder block? u ∧ (u = [] ∨ CqlType.ReadInside decoder sink u []) := by
  cases block? with
  | none =>
    cases h
    simp [IsColumnUnit, Bindings.values]
  | some block =>
    obtain ⟨bindings, q, hbindings, -, htypes⟩ := exists_of_readDynamicColumns h
    rw [exists_mem_iff_of_forall₂ (htypes.imp fun _ _ => custom_empty_mem_nodes_iff)]
    simp [IsColumnUnit, hbindings]

/-- The components and the dynamic columns of a composite have an empty class if and only if one of
their class names is empty or has an empty one read inside it. -/
theorem exists_custom_empty_iff {comparator : Comparator}
    (hcomposite : ClassName.isComposite (Place.start className).skipBlanks.name = true)
    (h : (ofChars decoder sink className).outcome = .ok comparator) :
    (∃ t ∈ comparator.types ++ comparator.dynamicColumns.values, custom "" ∈ t.nodes) ↔
      ∃ u, IsArgument decoder className u ∧
        (u = [] ∨ CqlType.ReadInside decoder sink u []) := by
  obtain ⟨units, p, harguments, -, hunits⟩ := exists_of_outcome_ofChars hcomposite h
  have hcomponents : (∃ t ∈ comparator.types, custom "" ∈ t.nodes) ↔
      ∃ u ∈ componentUnits units, u = [] ∨ CqlType.ReadInside decoder sink u [] :=
    exists_mem_iff_of_forall₂ ((forall₂_types hunits).imp fun _ _ => custom_empty_mem_nodes_iff)
  have hcolumns := exists_custom_empty_iff_of_readBlock (readBlock_of_ofUnits hunits)
  have hargument (u : List Char) : IsArgument decoder className u ↔
      u ∈ componentUnits units ∨ IsColumnUnit decoder (block? units) u := by
    simp [IsArgument, harguments]
  simp only [List.mem_append, or_and_right, exists_or, hcomponents, hcolumns, hargument]

/-- The class names that are read inside the class name of a comparator: those of a composite, with
what is read inside them, or those inside the class name of a type. -/
inductive ReadInside (decoder : Decoder) (sink : Sink) (className : List Char) :
    List Char → Prop
  | argument {u : List Char} :
      ClassName.isComposite (Place.start className).skipBlanks.name = true →
      IsArgument decoder className u → ReadInside decoder sink className u
  | further {u inner : List Char} :
      ClassName.isComposite (Place.start className).skipBlanks.name = true →
      IsArgument decoder className u → CqlType.ReadInside decoder sink u inner →
      ReadInside decoder sink className inner
  | single {inner : List Char} :
      ClassName.isComposite (Place.start className).skipBlanks.name = false →
      CqlType.ReadInside decoder sink className inner → ReadInside decoder sink className inner

/-- The argument of a composite that has a gap, or is empty, leaves a gap in the class name. -/
theorem IsArgument.hasGap {u : List Char} (h : IsArgument decoder className u)
    (hgap : u = [] ∨ HasGap u) : HasGap className := by
  obtain ⟨units, p, harguments, hu⟩ := h
  have hlist {unit : List Char} (hunit : unit ∈ units) (hgap : unit = [] ∨ HasGap unit) :
      HasGap className :=
    (Scan.hasGap_of_mem_arguments harguments hunit hgap).mono
      (unread_afterName_suffix className).isInfix
  rcases hu with hcomponent | ⟨block, hblock, bindings, q, hbindings, hcolumn⟩
  · exact hlist (mem_of_mem_componentUnits hcomponent) hgap
  · refine hlist (mem_of_mem_block? hblock) (.inr ?_)
    rcases Scan.list_of_opened hbindings with rfl | ⟨r, hunits, hunread⟩
    · cases hcolumn
    · have hsuffix : r.unread <:+ block :=
        (List.suffix_cons '(' r.unread).trans (hunread ▸ unread_afterName_suffix block)
      exact (Scan.hasGap_of_mem_namedUnits hunits hcolumn hgap).mono hsuffix.isInfix

theorem ReadInside.hasGap (h : ReadInside decoder sink className []) : HasGap className := by
  cases h with
  | argument _ hargument => exact hargument.hasGap (.inl rfl)
  | further _ hargument hinside => exact hargument.hasGap (.inr (hinside.hasGap (.inl rfl)))
  | single _ hinside => exact hinside.hasGap (.inl rfl)

/-- The type of a class name has an empty class somewhere if and only if the class name is empty or
an empty one is read inside it, and the same holds of the types of a comparator. An empty class name
is read only where the text has a gap. A list of arguments is read with an empty one if and only if
two of its commas have nothing between them, and a list of named arguments if and only if a colon
has nothing behind it. -/
theorem ofClassName_custom_empty_iff (className : String) (decoder : Decoder) (sink : Sink) :
    (∀ t, (CqlType.ofClassName decoder sink className).outcome = .ok t →
      (custom "" ∈ t.nodes ↔
        className = "" ∨ CqlType.ReadInside decoder sink className.toList [])) ∧
    (∀ comparator, (ofClassName decoder sink className).outcome = .ok comparator →
      ((∃ t ∈ comparator.types ++ comparator.dynamicColumns.values, custom "" ∈ t.nodes) ↔
        className = "" ∨ ReadInside decoder sink className.toList [])) ∧
    (CqlType.ReadInside decoder sink className.toList [] ∨
      ReadInside decoder sink className.toList [] → HasGap className.toList) ∧
    (∀ p us q, Scan.arguments p = .ok us q →
      ([] ∈ us ↔ ∃ behind, p.unread = '(' :: behind ∧ NothingBetween ',' [','] behind)) ∧
    ∀ p bindings q, Scan.namedUnits decoder p = .ok bindings q →
      ∃ pairs, bindings = .ofPairs pairs ∧
        ((∃ name, (name, []) ∈ pairs) ↔ NothingBetween ':' [',', ')'] p.unread) := by
  have htype {t : CqlType} (h : (CqlType.ofChars decoder sink className.toList).outcome = .ok t) :
      custom "" ∈ t.nodes ↔
        className = "" ∨ CqlType.ReadInside decoder sink className.toList [] := by
    rw [custom_empty_mem_nodes_iff h, String.toList_eq_nil_iff]
  refine ⟨fun t h => htype h, fun comparator h => ?_,
    fun h => h.elim (·.hasGap (.inl rfl)) (·.hasGap),
    fun p us q h => Scan.nil_mem_arguments_iff h,
    fun p bindings q h => Scan.nil_mem_namedUnits_iff h⟩
  cases hcomposite : ClassName.isComposite (Place.start className.toList).skipBlanks.name with
  | true =>
    -- The empty class name names no composite, so that an argument is all that can be empty.
    have hne : className ≠ "" := by
      rintro rfl
      exact absurd hcomposite (by decide +kernel)
    rw [exists_custom_empty_iff hcomposite h, or_iff_right hne]
    constructor
    · rintro ⟨u, hargument, rfl | hinside⟩
      · exact .argument hcomposite hargument
      · exact .further hcomposite hargument hinside
    · rintro (⟨-, hargument⟩ | ⟨-, hargument, hinside⟩ | ⟨hsingle, -⟩)
      · exact ⟨_, hargument, .inl rfl⟩
      · exact ⟨_, hargument, .inr hinside⟩
      · exact absurd (hsingle.symm.trans hcomposite) Bool.false_ne_true
  | false =>
    -- The only component has the type of the class name.
    obtain ⟨type, hread, rfl⟩ := (outcome_ofChars_eq_ok_iff hcomposite).1 h
    have hinside : ReadInside decoder sink className.toList [] ↔
        CqlType.ReadInside decoder sink className.toList [] := by
      refine ⟨?_, .single hcomposite⟩
      rintro (⟨htrue, -⟩ | ⟨htrue, -, -⟩ | ⟨-, hinside⟩)
      · exact absurd (hcomposite.symm.trans htrue) Bool.false_ne_true
      · exact absurd (hcomposite.symm.trans htrue) Bool.false_ne_true
      · exact hinside
    rw [hinside, ← htype hread]
    simp [types, Bindings.values]

/-- An element between two commas, and a dynamic column with no type behind its colon. -/
theorem ofClassName_custom_empty_iff_missing :
    let tupleText := "org.apache.cassandra.db.marshal.TupleType(,,Int32Type)"
    let compositeText := "org.apache.cassandra.db.marshal.CompositeType(Int32Type," ++
      "org.apache.cassandra.db.marshal.ColumnToCollectionType(61:))"
    let tuple : CqlType := .tuple [.custom "", .custom "Int32Type"]
    let comparator : Comparator := ⟨true, [⟨.custom "Int32Type", false⟩], [("a", .custom "")]⟩
    ((CqlType.ofClassName .hexDump .log tupleText).outcome = .ok tuple ∧
      CqlType.ReadInside .hexDump .log tupleText.toList [] ∧ HasGap tupleText.toList) ∧
    (ofClassName .hexDump .log compositeText).outcome = .ok comparator ∧
      ReadInside .hexDump .log compositeText.toList [] ∧ HasGap compositeText.toList := by
  intro tupleText compositeText tuple comparator
  have htuple : (CqlType.ofClassName .hexDump .log tupleText).outcome = .ok tuple := by
    decide +kernel
  have hcomparator : (ofClassName .hexDump .log compositeText).outcome = .ok comparator := by
    decide +kernel
  obtain ⟨htype, -, hgap, -⟩ := ofClassName_custom_empty_iff tupleText .hexDump .log
  obtain ⟨-, htypes, hgap', -⟩ := ofClassName_custom_empty_iff compositeText .hexDump .log
  have hinside := ((htype _ htuple).1 (by decide +kernel)).resolve_left (by decide +kernel)
  have hinside' := ((htypes _ hcomparator).1 ⟨.custom "", by decide +kernel, by decide +kernel⟩)
    |>.resolve_left (by decide +kernel)
  exact ⟨⟨htuple, hinside, hgap (.inl hinside)⟩, hcomparator, hinside', hgap' (.inr hinside')⟩

/-- An empty argument becomes an element of a tuple, the type of a field, the type inside a wrapper,
a component and the type of a dynamic column. -/
theorem outcome_ofClassName_empty_arguments :
    (CqlType.ofClassName .hexDump .log ("org.apache.cassandra.db.marshal.TupleType(" ++
      ",,org.apache.cassandra.db.marshal.Int32Type)")).outcome =
        .ok (.tuple [.custom "", .native .int]) ∧
    (CqlType.ofClassName .hexDump .log
      "org.apache.cassandra.db.marshal.UserType(ks,61,62:)").outcome =
        .ok (.udt true "ks" "a" [("b", .custom "")]) ∧
    (CqlType.ofClassName .hexDump .log
      "org.apache.cassandra.db.marshal.FrozenType(,,)").outcome = .ok (.custom "") ∧
    (ofClassName .hexDump .log ("org.apache.cassandra.db.marshal.CompositeType(" ++
      "org.apache.cassandra.db.marshal.Int32Type,," ++
      "org.apache.cassandra.db.marshal.ColumnToCollectionType(61:))")).outcome =
        .ok ⟨true, [⟨.native .int, false⟩, ⟨.custom "", false⟩], [("a", .custom "")]⟩ := by
  decide +kernel

end SchemaTypes.Comparator
