import SchemaTypes.Proofs.Comparator.Components
import SchemaTypes.Proofs.CqlType.Renaming

/-!
# Comparators under other names

Apart from the names in its types, a comparator has only the names of its dynamic columns from the
decoder. Which class names are composites and blocks, and which are reversed, is told by their
texts. So with other names a comparator has these names, and is the same in everything else.

## Main definitions

* `mapNames`: the comparator with other names.

## Main results

* `ofChars_mapNames`: the comparator of a class name.
* `ofClassName_eq_mapNames`: types and comparators of class names.
-/

namespace SchemaTypes.Comparator

open ClassName CqlType

/-- The comparator with other names of its dynamic columns, and of user-defined types and their
fields in its types. -/
def mapNames (f : String → String) (comparator : Comparator) : Comparator where
  isComposite := comparator.isComposite
  components := comparator.components.map fun component =>
    ⟨component.type.mapNames f, component.reversed⟩
  dynamicColumns := comparator.dynamicColumns.map (Prod.map f (CqlType.mapNames f))

section

variable {f : String → String} (hf : Function.Injective f) (decoder : Decoder) (sink : Sink)

include hf

theorem each_mapNames (units : List (List Char)) :
    (Reading.each units fun unit _ => CqlType.ofChars (decoder.mapNames f) sink unit) =
      List.map (CqlType.mapNames f) <$>
        Reading.each units fun unit _ => CqlType.ofChars decoder sink unit := by
  rw [← Reading.each_map]
  exact Reading.each_congr fun unit _ => CqlType.ofChars_mapNames hf decoder sink unit

/-- Different columns stay different. -/
theorem readDynamicColumns_mapNames (block : List Char) :
    readDynamicColumns (decoder.mapNames f) sink block =
      List.map (Prod.map f (CqlType.mapNames f)) <$> readDynamicColumns decoder sink block := by
  rw [readDynamicColumns, readDynamicColumns, Scan.namedArguments_mapNames decoder hf,
    Scan.map_apply]
  cases Scan.namedArguments decoder (Place.start block).skipBlanks.afterName with
  | error fault q => rfl
  | ok units q =>
    dsimp only
    rw [Bindings.values_map_fst, each_mapNames hf]
    simp only [Bindings.names_map_fst, bind_map_left, map_bind, map_pure, List.zip_map]

theorem ofUnits_mapNames (units : List (List Char)) (block? : Option (List Char)) :
    ofUnits (decoder.mapNames f) sink units block? =
      mapNames f <$> ofUnits decoder sink units block? := by
  have hblock : readBlock (decoder.mapNames f) sink block? =
      List.map (Prod.map f (CqlType.mapNames f)) <$> readBlock decoder sink block? := by
    cases block? with
    | none => rfl
    | some block => exact readDynamicColumns_mapNames hf decoder sink block
  -- The directions are told by the units, and stay as they are.
  simp only [ofUnits_eq_bind, hblock, each_mapNames hf, bind_map_left, map_bind, map_pure, mapNames,
    List.map_zipWith, List.zipWith_map_left]

/-- With other names the comparator of a class name has these names, and its reading reports the
same. -/
theorem ofChars_mapNames (className : List Char) :
    ofChars (decoder.mapNames f) sink className =
      mapNames f <$> ofChars decoder sink className := by
  simp only [ofChars]
  split
  · split
    · rfl
    · split
      · rfl
      · rw [map_bind]
        refine Reading.bind_congr fun last _ => ?_
        split
        · exact ofUnits_mapNames hf decoder sink _ _
        · exact ofUnits_mapNames hf decoder sink _ _
  · rw [CqlType.ofChars_mapNames hf, bind_map_left, map_bind]
    rfl

/-- The decoder gives names and has no other influence: for every decoder, sink and class name, if
the names that the decoder gives are replaced by others, different names by different ones, the type
and the comparator that are read have the other names and are the same in everything else, the same
is reported, and the same fault is met. -/
theorem ofClassName_eq_mapNames (className : String) :
    CqlType.ofClassName (decoder.mapNames f) sink className =
        ⟨(CqlType.ofClassName decoder sink className).events,
          (CqlType.ofClassName decoder sink className).outcome.map (CqlType.mapNames f)⟩ ∧
      ofClassName (decoder.mapNames f) sink className =
        ⟨(ofClassName decoder sink className).events,
          (ofClassName decoder sink className).outcome.map (mapNames f)⟩ := by
  have htype := CqlType.ofChars_mapNames hf decoder sink className.toList
  have hcomparator := ofChars_mapNames hf decoder sink className.toList
  rw [Reading.map_eq] at htype hcomparator
  exact ⟨htype, hcomparator⟩

end

/-- The decoder gives the first character, so that the two fields are one, and the two columns are
one. With another letter in front of each name they still are. -/
theorem ofClassName_eq_mapNames_merged :
    let decoder : Decoder := fun dump => .ok (String.ofList (dump.toList.take 1))
    let text := "org.apache.cassandra.db.marshal.CompositeType(" ++
      "org.apache.cassandra.db.marshal.ColumnToCollectionType(c1:X," ++
      "c2:org.apache.cassandra.db.marshal.UserType(k,a1,b1:X,b2:Y)))"
    Function.Injective ("x" ++ · : String → String) ∧
    (ofClassName decoder .log text).outcome =
      .ok ⟨true, [], [("c", .udt true "k" "a" [("b", .custom "Y")])]⟩ ∧
    (ofClassName (decoder.mapNames ("x" ++ ·)) .log text).outcome =
      .ok ⟨true, [], [("xc", .udt true "k" "xa" [("xb", .custom "Y")])]⟩ ∧
    (ofClassName (decoder.mapNames ("x" ++ ·)) .log text).events = [.keptVerbatim "Y"] := by
  intro decoder text
  have hf : Function.Injective ("x" ++ · : String → String) :=
    fun _ _ h => (String.append_right_inj "x").1 h
  obtain ⟨houtcome, hevents⟩ : (ofClassName decoder .log text).outcome =
      .ok ⟨true, [], [("c", .udt true "k" "a" [("b", .custom "Y")])]⟩ ∧
      (ofClassName decoder .log text).events = [.keptVerbatim "Y"] := by
    decide +kernel
  have hmapped := (ofClassName_eq_mapNames hf decoder .log text).2
  rw [houtcome, hevents] at hmapped
  exact ⟨hf, houtcome, congrArg Reading.outcome hmapped, congrArg Reading.events hmapped⟩

end SchemaTypes.Comparator
