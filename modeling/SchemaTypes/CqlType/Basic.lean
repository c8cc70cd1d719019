import SchemaTypes.Bindings
import SchemaTypes.CqlType.Native

/-!
# CQL types

The types of columns: native types, the three collections, user-defined types, tuples, and
classes that are kept by name because they are not known.

## Main definitions

* `CqlType`: the tree of a type.
* `CqlType.fieldNames`: the field names of a user-defined type.

## Main results

* `CqlType.beq_iff`: the structural test decides equality, which gives `DecidableEq CqlType`.
-/

namespace SchemaTypes

/-- The type of a column. -/
inductive CqlType
  /-- A built-in type. -/
  | native (t : NativeType)
  /-- A list, which if frozen is stored as one value. -/
  | list (frozen : Bool) (element : CqlType)
  /-- A set. -/
  | set (frozen : Bool) (element : CqlType)
  /-- A map. -/
  | map (frozen : Bool) (key value : CqlType)
  /-- A type that a user defined in a keyspace, with its fields in order. -/
  | udt (frozen : Bool) (keyspace name : String) (fields : List (String × CqlType))
  /-- A tuple, which is always frozen. -/
  | tuple (elements : List CqlType)
  /-- An unknown class, kept as it was written. -/
  | custom (className : String)

namespace CqlType

/-- The field names of a user-defined type in order; no other type has any. -/
def fieldNames : CqlType → List String
  | .udt _ _ _ fields => fields.map Prod.fst
  | _ => []

mutual

/-- Structural equality of types: fields are compared in order. -/
def beq : CqlType → CqlType → Bool
  | .native t, .native t' => t == t'
  | .list frozen element, .list frozen' element' => frozen == frozen' && element.beq element'
  | .set frozen element, .set frozen' element' => frozen == frozen' && element.beq element'
  | .map frozen key value, .map frozen' key' value' =>
    frozen == frozen' && key.beq key' && value.beq value'
  | .udt frozen keyspace name fields, .udt frozen' keyspace' name' fields' =>
    frozen == frozen' && keyspace == keyspace' && name == name' && beqFields fields fields'
  | .tuple elements, .tuple elements' => beqAll elements elements'
  | .custom className, .custom className' => className == className'
  | _, _ => false

/-- Equality of fields, name by name and type by type. -/
def beqFields : List (String × CqlType) → List (String × CqlType) → Bool
  | [], [] => true
  | (name, t) :: rest, (name', t') :: rest' =>
    name == name' && t.beq t' && beqFields rest rest'
  | _, _ => false

/-- Equality of lists of types. -/
def beqAll : List CqlType → List CqlType → Bool
  | [], [] => true
  | t :: rest, t' :: rest' => t.beq t' && beqAll rest rest'
  | _, _ => false

end

mutual

/-- The structural test decides equality of types. -/
theorem beq_iff : (a b : CqlType) → (a.beq b = true ↔ a = b)
  | .native _, b => by cases b <;> simp [beq]
  | .list _ element, b => by
    cases b <;> simp [beq]
    simp [beq_iff element]
  | .set _ element, b => by
    cases b <;> simp [beq]
    simp [beq_iff element]
  | .map _ key value, b => by
    cases b <;> simp [beq, and_assoc]
    simp [beq_iff key, beq_iff value]
  | .udt _ _ _ fields, b => by
    cases b <;> simp [beq, and_assoc]
    simp [beqFields_iff fields]
  | .tuple elements, b => by
    cases b <;> simp [beq]
    simp [beqAll_iff elements]
  | .custom _, b => by cases b <;> simp [beq]

/-- The structural test decides equality of fields. -/
theorem beqFields_iff : (a b : List (String × CqlType)) → (beqFields a b = true ↔ a = b)
  | [], b => by cases b <;> simp [beqFields]
  | (_, t) :: rest, b => by
    cases b <;> simp [beqFields, Prod.ext_iff]
    simp [beq_iff t, beqFields_iff rest]

/-- The structural test decides equality of lists of types. -/
theorem beqAll_iff : (a b : List CqlType) → (beqAll a b = true ↔ a = b)
  | [], b => by cases b <;> simp [beqAll]
  | t :: rest, b => by
    cases b <;> simp [beqAll]
    simp [beq_iff t, beqAll_iff rest]

end

instance : DecidableEq CqlType := fun a b => decidable_of_iff _ (beq_iff a b)

end CqlType

end SchemaTypes
