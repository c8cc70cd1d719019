import SchemaTypes.Comparator.OfClassName
import SchemaTypes.Proofs.CqlType.Faults

/-!
# Comparators are read or the class name is malformed

A comparator is made from as many directions as types, and the last unit of a composite is looked
at only if there is one. So the faults of reading a comparator are those of its parts, which are
structural, and the lack of components.

## Main results

* `raised_of_ofChars`, `structural_of_ofChars`: the faults of a comparator.
* `ofClassName_ok_or_malformed`: a type or a comparator is read, or the fault is structural.
-/

namespace SchemaTypes.Comparator

open ClassName

variable {decoder : Decoder} {sink : Sink}

theorem raised_of_each (hsink : sink.Accepts) {units : List (List Char)} {fault : Fault}
    (h : (Reading.each units fun unit _ => CqlType.ofChars decoder sink unit).outcome =
      .error fault) : fault.Raised decoder := by
  obtain ⟨unit, -, hunit⟩ := Reading.exists_of_outcome_each h
  exact CqlType.raised_of_ofChars hsink hunit

theorem raised_of_readDynamicColumns (hsink : sink.Accepts) {block : List Char} {fault : Fault}
    (h : (readDynamicColumns decoder sink block).outcome = .error fault) :
    fault.Raised decoder := by
  rw [readDynamicColumns] at h
  split at h
  · next hunits =>
    cases h
    exact (Scan.keeps_namedArguments Place.onward_inside).raised
      (Place.Inside.start block).skipBlanks.afterName hunits
  · rcases Reading.outcome_bind_eq_error_iff.1 h with h | ⟨types, -, h⟩
    · exact raised_of_each hsink h
    · simp at h

/-- As many directions as types make a comparator. -/
theorem checked_ofLists_ne_error {isComposite : Bool} {types : List CqlType} {flags : List Bool}
    {dynamicColumns : Bindings CqlType} (h : types.length = flags.length) (fault : Fault) :
    (checked (ofLists isComposite types flags dynamicColumns)).outcome ≠ .error fault := by
  intro herror
  rw [ofLists, if_pos h] at herror
  cases herror

/-- The last unit is found in any list that has units. -/
theorem lastUnit_ne_error {units : List (List Char)} (h : units ≠ []) (fault : Fault) :
    (Reading.ofExcept (lastUnit units)).outcome ≠ .error fault := by
  intro herror
  rw [lastUnit, List.getLast?_eq_some_getLast h] at herror
  cases herror

theorem raised_of_ofUnits (hsink : sink.Accepts) {units : List (List Char)}
    {block? : Option (List Char)} {fault : Fault}
    (h : (ofUnits decoder sink units block?).outcome = .error fault) : fault.Raised decoder := by
  -- The components are read in the same way with a block and without one.
  have hcomponents {dynamicColumns : Bindings CqlType} (h : (do
      let types ← Reading.each units fun unit _ => CqlType.ofChars decoder sink unit
      checked (ofLists true types (units.map isReversed) dynamicColumns)).outcome =
        .error fault) : fault.Raised decoder := by
    rcases Reading.outcome_bind_eq_error_iff.1 h with h | ⟨types, htypes, h⟩
    · exact raised_of_each hsink h
    · -- each unit gives one type and one direction
      have hlength : types.length = (units.map isReversed).length := by
        rw [Reading.length_of_outcome_each htypes, List.length_map]
      exact absurd h (checked_ofLists_ne_error hlength fault)
  cases block? with
  | none =>
    rcases Reading.outcome_bind_eq_error_iff.1 h with h | ⟨dynamicColumns, -, h⟩
    · simp at h
    · exact hcomponents h
  | some block =>
    rcases Reading.outcome_bind_eq_error_iff.1 h with h | ⟨dynamicColumns, -, h⟩
    · exact raised_of_readDynamicColumns hsink h
    · exact hcomponents h

/-- The fault of a comparator is raised by a scan, or a composite has no components, which is told
in the words of a scan. -/
theorem raised_of_ofChars (hsink : sink.Accepts) {className : List Char} {fault : Fault}
    (h : (ofChars decoder sink className).outcome = .error fault) : fault.Raised decoder := by
  have hstart := (Place.Inside.start className).skipBlanks.afterName
  have hkeeps : Scan.Keeps Place.Inside (Fault.RaisedAt decoder) Scan.arguments :=
    Scan.keeps_arguments Place.onward_inside
  simp only [ofChars] at h
  split at h
  · split at h
    · next hunits =>
      cases h
      exact hkeeps.raised hstart hunits
    · next units p hunits =>
      split at h
      · cases h
        exact ⟨p, (hkeeps.keepsAt hstart).of_ok hunits, .plain (.mk rfl)⟩
      · next hsome =>
        -- The list is not empty, so that its last unit is found.
        rcases Reading.outcome_bind_eq_error_iff.1 h with h | ⟨last, -, h⟩
        · exact absurd h (lastUnit_ne_error (by simpa using hsome) fault)
        · split at h
          · exact raised_of_ofUnits hsink h
          · exact raised_of_ofUnits hsink h
  · rcases Reading.outcome_bind_eq_error_iff.1 h with h | ⟨type, -, h⟩
    · exact CqlType.raised_of_ofChars hsink h
    · rw [single] at h
      exact absurd h (checked_ofLists_ne_error rfl fault)

/-- The fault of a comparator is structural. -/
theorem structural_of_ofChars (hdecoder : decoder.BlamesText) (hsink : sink.Accepts)
    {className : List Char} {fault : Fault}
    (h : (ofChars decoder sink className).outcome = .error fault) : fault.Structural :=
  (raised_of_ofChars hsink h).structural hdecoder

/-- A type and a comparator are read from any class name, or the fault is one of a class name at a
position inside it. -/
theorem ofClassName_ok_or_malformed (className : String) (decoder : Decoder)
    (hdecoder : decoder.BlamesText) (sink : Sink) (hsink : sink.Accepts) :
    ((∃ type, (CqlType.ofClassName decoder sink className).outcome = .ok type) ∨
      ∃ fault causes, (CqlType.ofClassName decoder sink className).outcome =
        .error (.malformed fault causes) ∧ fault.position ≤ fault.className.length) ∧
    ((∃ comparator, (ofClassName decoder sink className).outcome = .ok comparator) ∨
      ∃ fault causes, (ofClassName decoder sink className).outcome =
        .error (.malformed fault causes) ∧ fault.position ≤ fault.className.length) := by
  constructor
  · cases htype : (CqlType.ofClassName decoder sink className).outcome with
    | ok type => exact .inl ⟨type, rfl⟩
    | error fault =>
      obtain ⟨f, causes, rfl, hposition⟩ := CqlType.structural_of_ofChars hdecoder hsink htype
      exact .inr ⟨f, causes, rfl, hposition⟩
  · cases hcomparator : (ofClassName decoder sink className).outcome with
    | ok comparator => exact .inl ⟨comparator, rfl⟩
    | error fault =>
      obtain ⟨f, causes, rfl, hposition⟩ := structural_of_ofChars hdecoder hsink hcomparator
      exact .inr ⟨f, causes, rfl, hposition⟩

/-- A list whose arguments are not closed, read with the decoder of dumps. -/
theorem ofClassName_ok_or_malformed_unclosed :
    let className := "org.apache.cassandra.db.marshal.ListType("
    ((∃ type, (CqlType.ofClassName .hexDump .log className).outcome = .ok type) ∨
      ∃ fault causes, (CqlType.ofClassName .hexDump .log className).outcome =
        .error (.malformed fault causes) ∧ fault.position ≤ fault.className.length) ∧
    ((∃ comparator, (ofClassName .hexDump .log className).outcome = .ok comparator) ∨
      ∃ fault causes, (ofClassName .hexDump .log className).outcome =
        .error (.malformed fault causes) ∧ fault.position ≤ fault.className.length) :=
  ofClassName_ok_or_malformed _ .hexDump blamesText_hexDump .log Sink.accepts_log

end SchemaTypes.Comparator
