import SchemaTypes.Comparator.OfClassName
import SchemaTypes.Proofs.CqlType.Sinks

/-!
# The sink does not influence how a comparator is read

Reading a comparator with any sink is reading it with a collecting one, seen through that sink.

## Main results

* `ofChars_through`: the comparator of a class name.
* `ofClassName_eq_through`: types and comparators of class names.
-/

namespace SchemaTypes.Comparator

open ClassName

variable (decoder : Decoder) (sink : Sink)

theorem each_through (units : List (List Char)) :
    (Reading.each units fun unit _ => CqlType.ofChars decoder sink unit) =
      (Reading.each units fun unit _ => CqlType.ofChars decoder .collect unit).through sink := by
  rw [Reading.through_each]
  simp only [← CqlType.ofChars_through]

theorem readDynamicColumns_through (block : List Char) : readDynamicColumns decoder sink block =
    (readDynamicColumns decoder .collect block).through sink := by
  rw [readDynamicColumns, readDynamicColumns]
  split
  · exact (Reading.through_ofExcept sink _).symm
  · simp only [Reading.through_bind, Reading.through_pure, ← each_through]

theorem ofUnits_through (units : List (List Char)) (block? : Option (List Char)) :
    ofUnits decoder sink units block? = (ofUnits decoder .collect units block?).through sink := by
  cases block? with
  | none =>
    simp only [ofUnits, checked, Reading.through_bind, Reading.through_pure,
      Reading.through_ofExcept, ← each_through]
  | some block =>
    simp only [ofUnits, checked, Reading.through_bind, Reading.through_ofExcept, ← each_through,
      ← readDynamicColumns_through]

/-- The comparator of a class name with a sink is the one with a collecting sink, seen through
that sink. -/
theorem ofChars_through (className : List Char) : ofChars decoder sink className =
    (ofChars decoder .collect className).through sink := by
  have hfail (fault : Fault) : Reading.fail fault = (Reading.fail fault).through sink :=
    (Reading.through_ofExcept (α := Comparator) sink _).symm
  simp only [ofChars]
  split
  · split
    · exact hfail _
    · split
      · exact hfail _
      · rw [Reading.through_bind, Reading.through_ofExcept]
        refine Reading.bind_congr fun last _ => ?_
        split
        · exact ofUnits_through decoder sink _ _
        · exact ofUnits_through decoder sink _ _
  · simp only [checked, Reading.through_bind, Reading.through_ofExcept, ← CqlType.ofChars_through]

/-- The sink does not influence reading: for every decoder, sink and class name, the type and the
comparator are read as with a collecting sink, and what is reported is what becomes of the events
of that reading. What is logged in the place of a diagnostic is a warning with its wording. -/
theorem ofClassName_eq_through (className : String) :
    CqlType.ofClassName decoder sink className =
        (CqlType.ofClassName decoder .collect className).through sink ∧
      ofClassName decoder sink className =
        (ofClassName decoder .collect className).through sink ∧
      (∀ event : Event, event.toLog.message = event.message) ∧
      ∀ diagnostic : Diagnostic, (Event.diagnosed diagnostic).toLog.level? = some .warning :=
  ⟨CqlType.ofChars_through decoder sink className.toList,
    ofChars_through decoder sink className.toList, Event.message_toLog,
    Event.level?_toLog_diagnosed⟩

end SchemaTypes.Comparator
