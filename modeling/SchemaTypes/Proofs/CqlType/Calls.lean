import Mathlib.Logic.Function.Iterate
import SchemaTypes.Proofs.CqlType.Outcome

/-!
# Which class names are read on the way

Reading a class name calls for readings of other class names. With these left open, the result is
the same for any two ways to read them that agree on shorter class names. So no other class names
are called for, and reading to a depth that exceeds the number of characters gives the result,
whatever stands at the bottom.

## Main definitions

* `ofCharsWith`: the type of a class name, given the types of the class names inside it.

## Main results

* `ofCharsWith_congr`: the class names inside are shorter.
* `iterate_ofCharsWith`: reading comes to an end.
-/

namespace SchemaTypes.CqlType

open ClassName

variable {decoder : Decoder} {sink : Sink}

/-- Reads a class name, where `read` reads the class names inside it. -/
def ofCharsWith (decoder : Decoder) (sink : Sink) (read : List Char → Reading CqlType)
    (className : List Char) : Reading CqlType := do
  let layer ← Layer.ofClassName decoder sink className
  let types ← layer.traverse fun part _ => read part
  pure (ofLayer types)

theorem ofCharsWith_ofChars (className : List Char) :
    ofCharsWith decoder sink (ofChars decoder sink) className = ofChars decoder sink className :=
  (ofChars_eq_bind decoder sink className).symm

/-- Only shorter class names are read inside a class name. -/
theorem ofCharsWith_congr {read read' : List Char → Reading CqlType} {className : List Char}
    (h : ∀ part : List Char, part.length < className.length → read part = read' part) :
    ofCharsWith decoder sink read className = ofCharsWith decoder sink read' className := by
  refine Reading.bind_congr fun layer hlayer => ?_
  have hparts : (fun part (_ : part ∈ layer.parts) => read part) = fun part _ => read' part := by
    funext part hpart
    exact h part (Layer.length_lt_of_mem_parts hlayer hpart)
  rw [hparts]

/-- Reading to a depth that exceeds the number of characters gives the result, whatever stands at
the bottom. -/
theorem iterate_ofCharsWith (bottom : List Char → Reading CqlType) {n : Nat}
    {className : List Char} (h : className.length < n) :
    (ofCharsWith decoder sink)^[n] bottom className = ofChars decoder sink className := by
  induction n generalizing className with
  | zero => omega
  | succ n ih =>
    rw [Function.iterate_succ_apply', ← ofCharsWith_ofChars]
    exact ofCharsWith_congr fun part hpart => ih (by omega)

end SchemaTypes.CqlType
