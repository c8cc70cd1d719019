import SchemaTypes.Proofs.ClassName.Sinks
import SchemaTypes.Proofs.CqlType.Outcome

/-!
# The sink does not influence how a type is read

Nothing that is read depends on what became of a diagnostic, so reading a type with any sink is
reading it with a collecting one, seen through that sink.

## Main results

* `Layer.ofClassName_through`: the outermost level of a class name.
* `ofChars_through`: the type of a class name.
-/

namespace SchemaTypes.CqlType

open ClassName

namespace Layer

variable {decoder : Decoder} (sink : Sink)

theorem reportWrapper_through (wrapper : Wrapper) (head : Head) :
    reportWrapper sink wrapper head = (reportWrapper .collect wrapper head).through sink := by
  rw [reportWrapper, reportWrapper]
  split
  · exact (Reading.through_report sink _).symm
  · exact (Reading.through_pure sink ()).symm

theorem reportUnknown_through (head : Head) (className : List Char) :
    (reportUnknown head className).through sink = reportUnknown head className := by
  rw [reportUnknown]
  split
  · exact Reading.through_note sink rfl
  · exact Reading.through_pure sink ()

/-- The outermost level of a class name with a sink is the one with a collecting sink, seen
through that sink. -/
theorem ofClassName_through (className : List Char) : ofClassName decoder sink className =
    (ofClassName decoder .collect className).through sink := by
  rw [ofClassName, ofClassName, Reading.through_bind, Reading.through_ofExcept]
  refine Reading.bind_congr fun unwrapped _ => ?_
  simp only [ofUnwrapped, Reading.through_bind, Reading.through_ofExcept, Reading.through_pure,
    ← reportWrapper_through, reportUnknown_through]

/-- The parts of a level are seen through a sink one by one. -/
theorem through_traverse {α β : Type} (layer : Layer α)
    (read : (a : α) → a ∈ layer.parts → Reading β) :
    (layer.traverse read).through sink =
      layer.traverse fun a ha => (read a ha).through sink := by
  cases layer with
  | udt keyspace name fields =>
    have heach := Reading.through_each sink fields.values read
    simp only [traverse, Reading.through_bind, Reading.through_pure, heach]
    rfl
  | tuple elements =>
    have heach := Reading.through_each sink elements read
    simp only [traverse, Reading.through_bind, Reading.through_pure, heach]
    rfl
  | _ => simp only [traverse, Reading.through_bind, Reading.through_pure]

end Layer

/-- The type of a class name with a sink is the one with a collecting sink, seen through that
sink. -/
theorem ofChars_through (decoder : Decoder) (sink : Sink) (className : List Char) :
    ofChars decoder sink className = (ofChars decoder .collect className).through sink := by
  rw [ofChars_eq_bind, ofChars_eq_bind, Reading.through_bind, ← Layer.ofClassName_through]
  refine Reading.bind_congr fun layer hlayer => ?_
  -- The parts are shorter than the class name.
  have hparts : (fun part (_ : part ∈ layer.parts) => ofChars decoder sink part) =
      fun part _ => (ofChars decoder .collect part).through sink := by
    funext part hpart
    exact ofChars_through decoder sink part
  simp only [Reading.through_bind, Layer.through_traverse, Reading.through_pure, hparts]
termination_by className.length
decreasing_by exact Layer.length_lt_of_mem_parts hlayer hpart

end SchemaTypes.CqlType
