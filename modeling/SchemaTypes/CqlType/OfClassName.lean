import SchemaTypes.CqlType.Layer.OfClassName

/-!
# CQL types from class names

The type that a class name spells: its outermost level, and then its parts from left to right by
the same rule.

## Main definitions

* `CqlType.ofChars`, `CqlType.ofClassName`: the type of a class name.
-/

namespace SchemaTypes.CqlType

open ClassName

/-- Reads the type that a class name spells. -/
def ofChars (decoder : Decoder) (sink : Sink) (className : List Char) : Reading CqlType :=
  match _h : Layer.ofClassName decoder sink className with
  | ⟨events, .error fault⟩ => ⟨events, .error fault⟩
  | ⟨events, .ok layer⟩ =>
    let inner := layer.traverse fun part _hpart => ofChars decoder sink part
    ⟨events ++ inner.events, inner.outcome.map ofLayer⟩
termination_by className.length
decreasing_by exact Layer.length_lt_of_mem_parts (congrArg Reading.outcome _h) _hpart

/-- Reads the type that a class name spells. -/
def ofClassName (decoder : Decoder) (sink : Sink) (className : String) : Reading CqlType :=
  ofChars decoder sink className.toList

end SchemaTypes.CqlType
