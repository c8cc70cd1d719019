import SchemaTypes.ClassName.Fault
import SchemaTypes.CqlType.Basic

/-!
# Comparators

A comparator says what the cells of a table are ordered by: one type or, if it is a composite,
several, each with its direction. A composite may also name dynamic columns and give their types.

## Main definitions

* `Component`, `Comparator`, `Comparator.clusteringOrder`.
* `Comparator.ofLists`: a comparator from types and directions that are given apart.
* `Comparator.same`: equality of comparators.
-/

namespace SchemaTypes

/-- The direction in which a component orders cells. -/
inductive ClusteringOrder
  | ascending
  | descending
  deriving DecidableEq, Repr

namespace ClusteringOrder

/-- The CQL word for a direction. -/
def cqlName : ClusteringOrder → String
  | .ascending => "ASC"
  | .descending => "DESC"

/-- The direction with a CQL word in capitals. -/
def ofName (name : String) : Except UnknownName ClusteringOrder :=
  match [ascending, descending].find? (·.cqlName = name) with
  | some order => .ok order
  | none => .error ⟨"ClusteringOrder", name⟩

end ClusteringOrder

/-- A type that orders cells. -/
structure Component where
  /-- The type. -/
  type : CqlType
  /-- It orders cells from the greatest to the least. -/
  reversed : Bool
  deriving DecidableEq

/-- The direction of a component. -/
def Component.clusteringOrder (component : Component) : ClusteringOrder :=
  if component.reversed then .descending else .ascending

/-- What the cells of a table are ordered by. -/
structure Comparator where
  /-- It is written as a composite. -/
  isComposite : Bool
  /-- The components in order. -/
  components : List Component
  /-- The types of the dynamic columns by name. -/
  dynamicColumns : Bindings CqlType
  deriving DecidableEq

namespace Comparator

open ClassName

/-- A comparator from types and directions that are given apart. -/
def ofLists (isComposite : Bool) (types : List CqlType) (flags : List Bool)
    (dynamicColumns : Bindings CqlType) : Except LengthMismatch Comparator :=
  if types.length = flags.length then
    .ok ⟨isComposite, types.zipWith Component.mk flags, dynamicColumns⟩
  else .error ⟨types.length, flags.length⟩

/-- The comparator of a type that is no composite. -/
def single (type : CqlType) (reversed : Bool) : Except LengthMismatch Comparator :=
  ofLists false [type] [reversed] []

/-- The types of the components. -/
def types (comparator : Comparator) : List CqlType :=
  comparator.components.map (·.type)

/-- Which components are reversed. -/
def reversedFlags (comparator : Comparator) : List Bool :=
  comparator.components.map (·.reversed)

/-- The directions of the components. -/
def clusteringOrder (comparator : Comparator) : List ClusteringOrder :=
  comparator.components.map (·.clusteringOrder)

/-- Equality of comparators: the order of the dynamic columns does not count. -/
def same (a b : Comparator) : Bool :=
  a.isComposite == b.isComposite && a.components == b.components &&
    a.dynamicColumns.sameMapping b.dynamicColumns

end Comparator

end SchemaTypes
