import SchemaTypes.Comparator.Basic
import SchemaTypes.CqlType.OfClassName

/-!
# Comparators from class names

A composite lists the class names of its components, and may end with a block that binds the
names of dynamic columns to the class names of their types. Any other class name is a comparator
with one component.

## Main definitions

* `Comparator.ofChars`, `Comparator.ofClassName`: the comparator of a class name.
-/

namespace SchemaTypes.Comparator

open ClassName

/-- Ends a reading with a comparator, or with the mismatch that keeps it from being made. -/
def checked (comparator : Except LengthMismatch Comparator) : Reading Comparator :=
  .ofExcept (comparator.mapError .mismatched)

/-- Reads the dynamic columns of a block. -/
def readDynamicColumns (decoder : Decoder) (sink : Sink) (block : List Char) :
    Reading (Bindings CqlType) :=
  match Scan.namedArguments decoder (Place.start block).skipBlanks.afterName with
  | .error fault _ => .fail fault
  | .ok units _ => do
    let types ← Reading.each units.values fun unit _ => CqlType.ofChars decoder sink unit
    return units.names.zip types

/-- Reads a composite from the units between its parentheses. The types of dynamic columns are
read before the components. -/
def ofUnits (decoder : Decoder) (sink : Sink) (units : List (List Char))
    (block? : Option (List Char)) : Reading Comparator := do
  let dynamicColumns ←
    match block? with
    | some block => readDynamicColumns decoder sink block
    | none => pure []
  let types ← Reading.each units fun unit _ => CqlType.ofChars decoder sink unit
  checked (ofLists true types (units.map isReversed) dynamicColumns)

/-- Reads the comparator that a class name spells. A composite has to have arguments; if the last
of them is a block of dynamic columns, all before it are components, and there may be none. -/
def ofChars (decoder : Decoder) (sink : Sink) (className : List Char) : Reading Comparator :=
  let start := (Place.start className).skipBlanks
  if ClassName.isComposite start.name then
    match Scan.arguments start.afterName with
    | .error fault _ => .fail fault
    | .ok units p =>
      if units.isEmpty then .fail (.malformed (p.fault .componentsMissing) [])
      else do
        let last ← Reading.ofExcept (lastUnit units)
        if isDynamicColumns last then ofUnits decoder sink units.dropLast (some last)
        else ofUnits decoder sink units none
  else do
    let type ← CqlType.ofChars decoder sink className
    checked (single type (isReversed start.name))

/-- Reads the comparator that a class name spells. -/
def ofClassName (decoder : Decoder) (sink : Sink) (className : String) : Reading Comparator :=
  ofChars decoder sink className.toList

end SchemaTypes.Comparator
