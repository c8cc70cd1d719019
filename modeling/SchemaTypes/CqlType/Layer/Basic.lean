import SchemaTypes.ClassName.Reading
import SchemaTypes.CqlType.Basic

/-!
# One level of a type

A layer is the outermost level of a type: it says which type it is, over parts of any kind.

## Main definitions

* `CqlType.Layer`, with its `parts`.
* `Layer.traverse`: reads the parts from left to right.
* `CqlType.ofLayer`: the type with a given outermost level.
-/

namespace SchemaTypes.CqlType

open ClassName

/-- The outermost level of a type, over parts of any kind. -/
inductive Layer (α : Type)
  | native (t : NativeType)
  | list (frozen : Bool) (element : α)
  | set (frozen : Bool) (element : α)
  | map (frozen : Bool) (key value : α)
  | udt (keyspace name : String) (fields : Bindings α)
  | tuple (elements : List α)
  | custom (className : String)

namespace Layer

variable {α β : Type}

/-- The parts of a layer from left to right. -/
def parts : Layer α → List α
  | .native _ => []
  | .list _ element => [element]
  | .set _ element => [element]
  | .map _ key value => [key, value]
  | .udt _ _ fields => fields.values
  | .tuple elements => elements
  | .custom _ => []

/-- Reads the parts of a layer from left to right. -/
def traverse : (layer : Layer α) → ((a : α) → a ∈ layer.parts → Reading β) → Reading (Layer β)
  | .native t, _ => pure (.native t)
  | .list frozen element, read => do
    return .list frozen (← read element (by simp [parts]))
  | .set frozen element, read => do
    return .set frozen (← read element (by simp [parts]))
  | .map frozen key value, read => do
    let key ← read key (by simp [parts])
    let value ← read value (by simp [parts])
    return .map frozen key value
  | .udt keyspace name fields, read => do
    let types ← Reading.each fields.values read
    return .udt keyspace name (fields.names.zip types)
  | .tuple elements, read => do
    return .tuple (← Reading.each elements read)
  | .custom className, _ => pure (.custom className)

end Layer

/-- The type with a given outermost level. User-defined types are always frozen. -/
def ofLayer : Layer CqlType → CqlType
  | .native t => .native t
  | .list frozen element => .list frozen element
  | .set frozen element => .set frozen element
  | .map frozen key value => .map frozen key value
  | .udt keyspace name fields => .udt true keyspace name fields
  | .tuple elements => .tuple elements
  | .custom className => .custom className

end SchemaTypes.CqlType
