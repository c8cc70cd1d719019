import SchemaTypes.Comparator.OfClassName
import SchemaTypes.Proofs.CqlType.Calls
import SchemaTypes.Proofs.CqlType.RoundTrip
import SchemaTypes.Proofs.CqlType.Size

/-!
# Reading comes to an end, with a bounded result

Reading a list goes forwards in each of its turns, and reading a class name calls for readings of
shorter class names only. The type that is read is nested no deeper than the parentheses of the
class name, and has no more nodes than the class name has characters.

## Main definitions

* `ofCharsWith`: the comparator of a class name, given the types of the class names inside it.

## Main results

* `ofCharsWith_congr`: the components and the dynamic columns of a composite are shorter than it.
* `ofClassName_bounded`: reading comes to an end, and its results are bounded.
-/

namespace SchemaTypes.Comparator

open ClassName

variable {decoder : Decoder} {read read' : List Char → Reading CqlType}

/-- Reads the dynamic columns of a block, where `read` reads their types. -/
def readDynamicColumnsWith (decoder : Decoder) (read : List Char → Reading CqlType)
    (block : List Char) : Reading (Bindings CqlType) :=
  match Scan.namedArguments decoder (Place.start block).skipBlanks.afterName with
  | .error fault _ => .fail fault
  | .ok units _ => do
    let types ← Reading.each units.values fun unit _ => read unit
    return units.names.zip types

/-- Reads a composite from its units, where `read` reads the types. -/
def ofUnitsWith (decoder : Decoder) (read : List Char → Reading CqlType)
    (units : List (List Char)) (block? : Option (List Char)) : Reading Comparator := do
  let dynamicColumns ←
    match block? with
    | some block => readDynamicColumnsWith decoder read block
    | none => pure []
  let types ← Reading.each units fun unit _ => read unit
  checked (ofLists true types (units.map isReversed) dynamicColumns)

/-- Reads the comparator that a class name spells, where `read` reads the types. -/
def ofCharsWith (decoder : Decoder) (read : List Char → Reading CqlType)
    (className : List Char) : Reading Comparator :=
  let start := (Place.start className).skipBlanks
  if ClassName.isComposite start.name then
    match Scan.arguments start.afterName with
    | .error fault _ => .fail fault
    | .ok units p =>
      if units.isEmpty then .fail (.malformed (p.fault .componentsMissing) [])
      else do
        let last ← Reading.ofExcept (lastUnit units)
        if isDynamicColumns last then ofUnitsWith decoder read units.dropLast (some last)
        else ofUnitsWith decoder read units none
  else do
    let type ← read className
    checked (single type (isReversed start.name))

theorem ofCharsWith_ofChars (decoder : Decoder) (sink : Sink) (className : List Char) :
    ofCharsWith decoder (CqlType.ofChars decoder sink) className =
      ofChars decoder sink className :=
  rfl

/-- What stands behind the name of a class is no longer than the whole. -/
theorem length_afterName_le (className : List Char) :
    (Place.start className).skipBlanks.afterName.unread.length ≤ className.length :=
  ((Place.start className).skipBlanks.length_afterName_le).trans
    (Place.start className).length_skipBlanks_le

/-- The types of dynamic columns are shorter than their block. -/
theorem readDynamicColumnsWith_congr {block : List Char}
    (h : ∀ part : List Char, part.length < block.length → read part = read' part) :
    readDynamicColumnsWith decoder read block = readDynamicColumnsWith decoder read' block := by
  simp only [readDynamicColumnsWith]
  split
  · rfl
  · next units q hunits =>
    have hread : ∀ unit ∈ Bindings.values units, read unit = read' unit := fun unit hunit =>
      h unit ((Scan.length_lt_of_mem_namedArguments hunits hunit).trans_le
        (length_afterName_le block))
    rw [Reading.each_congr hread]

/-- The components of a composite are its units, and the types of dynamic columns are shorter than
its block. -/
theorem ofUnitsWith_congr {units : List (List Char)} {block? : Option (List Char)}
    (hunits : ∀ unit ∈ units, read unit = read' unit)
    (hblock : ∀ block ∈ block?, ∀ part : List Char, part.length < block.length →
      read part = read' part) :
    ofUnitsWith decoder read units block? = ofUnitsWith decoder read' units block? := by
  simp only [ofUnitsWith, Reading.each_congr hunits]
  cases block? with
  | none => rfl
  | some block => simp only [readDynamicColumnsWith_congr (hblock block rfl)]

theorem mem_of_lastUnit {units : List (List Char)} {last : List Char}
    (h : lastUnit units = .ok last) : last ∈ units := by
  rw [lastUnit] at h
  split at h
  · simp at h
  · next hlast =>
    cases h
    exact List.mem_of_getLast? hlast

/-- The components and the dynamic columns of a composite are shorter than it is; any other class
name is read as a whole. -/
theorem ofCharsWith_congr {className : List Char}
    (h : ∀ part : List Char, part.length < className.length → read part = read' part)
    (hwhole : ClassName.isComposite (Place.start className).skipBlanks.name = false →
      read className = read' className) :
    ofCharsWith decoder read className = ofCharsWith decoder read' className := by
  simp only [ofCharsWith]
  split
  · split
    · rfl
    · next units p harguments =>
      have hunits : ∀ unit ∈ units, unit.length < className.length := fun unit hunit =>
        (Scan.length_lt_of_mem_arguments harguments hunit).trans_le (length_afterName_le className)
      split
      · rfl
      · refine Reading.bind_congr fun last hlast => ?_
        have hmem : last ∈ units := mem_of_lastUnit hlast
        -- The last unit is a block of dynamic columns or one more component.
        split
        · refine ofUnitsWith_congr (fun unit hunit => ?_) ?_
          · exact h unit (hunits unit (List.mem_of_mem_dropLast hunit))
          · rintro block ⟨⟩ part hpart
            exact h part (hpart.trans (hunits last hmem))
        · exact ofUnitsWith_congr (fun unit hunit => h unit (hunits unit hunit)) (by simp)
  · next hcomposite => rw [hwhole (Bool.eq_false_iff.2 hcomposite)]

/-- Reading comes to an end with a bounded result. Each turn in reading a list passes characters,
and reading goes on behind it. Inside a class name only shorter ones are read, and a comparator that
is no composite is read as a type; so reading to a depth that exceeds the number of characters gives
the result, whatever stands at the bottom. A type is nested no deeper than some front part of the
class name leaves parentheses open, and has no more nodes than the class name has characters. -/
theorem ofClassName_bounded (decoder : Decoder) (sink : Sink) :
    (∀ (p q : Place) (u : List Char), Scan.Turn Scan.argument p u q → p.offset < q.offset ∧
      Scan.items Scan.argument Scan.headway_argument p =
        Scan.withItem u (Scan.items Scan.argument Scan.headway_argument q)) ∧
    (∀ (p q : Place) (pair : String × List Char),
      Scan.Turn (Scan.namedUnit decoder) p pair q → p.offset < q.offset ∧
        Scan.items (Scan.namedUnit decoder) (Scan.headway_namedUnit decoder) p =
          Scan.withItem pair
            (Scan.items (Scan.namedUnit decoder) (Scan.headway_namedUnit decoder) q)) ∧
    (∀ (className : List Char) (read read' : List Char → Reading CqlType),
      (∀ part : List Char, part.length < className.length → read part = read' part) →
        CqlType.ofCharsWith decoder sink read className =
            CqlType.ofCharsWith decoder sink read' className ∧
          ((ClassName.isComposite (Place.start className).skipBlanks.name = false →
              read className = read' className) →
            ofCharsWith decoder read className = ofCharsWith decoder read' className)) ∧
    (∀ (className : String) (bottom : List Char → Reading CqlType) (n : Nat),
      className.toList.length < n →
        (CqlType.ofCharsWith decoder sink)^[n] bottom className.toList =
            CqlType.ofClassName decoder sink className ∧
          ofCharsWith decoder ((CqlType.ofCharsWith decoder sink)^[n] bottom) className.toList =
            ofClassName decoder sink className) ∧
    ∀ (className : String) (t : CqlType),
      (CqlType.ofClassName decoder sink className).outcome = .ok t →
        (∃ front, front <+: className.toList ∧
          t.depth + front.count ')' ≤ 1 + front.count '(') ∧
        t.size ≤ max 1 className.toList.length := by
  refine ⟨?_, ?_, ?_, ?_, ?_⟩
  · intro p q u hturn
    exact ⟨hturn.offset_lt Scan.readsExactly_argument Scan.headway_argument, hturn.items_eq⟩
  · intro p q pair hturn
    exact ⟨hturn.offset_lt (Scan.readsExactly_namedUnit decoder) (Scan.headway_namedUnit decoder),
      hturn.items_eq⟩
  · intro className read read' h
    exact ⟨CqlType.ofCharsWith_congr h, ofCharsWith_congr h⟩
  · intro className bottom n hn
    refine ⟨CqlType.iterate_ofCharsWith bottom hn, ?_⟩
    rw [ofClassName, ← ofCharsWith_ofChars]
    refine ofCharsWith_congr (fun part hpart => ?_) fun _ => ?_
    · exact CqlType.iterate_ofCharsWith bottom (hpart.trans hn)
    · exact CqlType.iterate_ofCharsWith bottom hn
  · intro className t ht
    obtain ⟨front, hfront, hcount⟩ := exists_count_eq_nesting className.toList
    have := CqlType.depth_le_nesting ht
    exact ⟨⟨front, hfront, by omega⟩, CqlType.size_le_room ht⟩

/-- Between two commas an argument is read that is empty, and a list of sets has a bounded type. -/
theorem ofClassName_bounded_list :
    (Scan.Turn Scan.argument ⟨",,a)".toList, 0⟩ [] ⟨",,a)".toList, 1⟩ ∧ 0 < 1) ∧
    (∃ front, front <+: CollectionKind.list.className ++
        listText [CollectionKind.set.className ++ listText [nativeClass .int]] ∧
      (CqlType.list false (.set false (.native .int))).depth + front.count ')' ≤
        1 + front.count '(') ∧
    (CqlType.list false (.set false (.native .int))).size ≤
      max 1 (CollectionKind.list.className ++
        listText [CollectionKind.set.className ++ listText [nativeClass .int]]).length := by
  have hturn : Scan.Turn Scan.argument ⟨",,a)".toList, 0⟩ [] ⟨",,a)".toList, 1⟩ :=
    ⟨⟨',', "a)".toList, rfl, by decide⟩, rfl⟩
  have hread : (CqlType.ofClassName .hexDump .collect (String.ofList
      (CollectionKind.list.className ++
        listText [CollectionKind.set.className ++ listText [nativeClass .int]]))).outcome =
      .ok (.list false (.set false (.native .int))) := by
    rw [CqlType.ofClassName, String.toList_ofList]
    exact CqlType.outcome_ofChars_render
      (e := .mk .none (.list (.mk .none (.set (.mk .none (.native .int))))))
      (by simp)
      Sink.accepts_collect
  have hbounded := (ofClassName_bounded .hexDump .collect).2.2.2.2 _ _ hread
  rw [String.toList_ofList] at hbounded
  exact ⟨⟨hturn, ((ofClassName_bounded .hexDump .collect).1 _ _ _ hturn).1⟩, hbounded⟩

end SchemaTypes.Comparator
