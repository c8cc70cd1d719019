import Mathlib.Algebra.GroupWithZero.Nat
import Mathlib.Data.List.Basic
import SchemaTypes.CqlType.Basic

/-!
# Types as trees

A type is a node over the types that it is made of: the element of a list or a set, the key and the
value of a map, the elements of a tuple and the types of fields.

## Main definitions

* `CqlType.parts`: the types that a type is made of.
* `CqlType.fold`: functions by recursion over a type.
* `CqlType.customs`, `CqlType.nodes`, `CqlType.depth`, `CqlType.size`: the unknown classes in a
  type, its nodes, how deep it is nested, and of how many nodes it consists.

## Main results

* `CqlType.fold_eq`: recursion goes into the parts.
-/

namespace SchemaTypes.CqlType

/-- The types that a type is made of, from left to right. -/
def parts : CqlType → List CqlType
  | .native _ => []
  | .list _ element => [element]
  | .set _ element => [element]
  | .map _ key value => [key, value]
  | .udt _ _ _ fields => fields.map Prod.snd
  | .tuple elements => elements
  | .custom _ => []

variable {β : Type}

mutual

/-- The function on types that takes a type, and the values of its parts, to a value. -/
def fold (f : CqlType → List β → β) : CqlType → β
  | .native t => f (.native t) []
  | .list frozen element => f (.list frozen element) [element.fold f]
  | .set frozen element => f (.set frozen element) [element.fold f]
  | .map frozen key value => f (.map frozen key value) [key.fold f, value.fold f]
  | .udt frozen keyspace name fields => f (.udt frozen keyspace name fields) (foldFields f fields)
  | .tuple elements => f (.tuple elements) (foldAll f elements)
  | .custom className => f (.custom className) []

/-- The values of the types of fields. -/
def foldFields (f : CqlType → List β → β) : List (String × CqlType) → List β
  | [] => []
  | (_, t) :: rest => t.fold f :: foldFields f rest

/-- The values of types. -/
def foldAll (f : CqlType → List β → β) : List CqlType → List β
  | [] => []
  | t :: rest => t.fold f :: foldAll f rest

end

theorem foldAll_eq_map (f : CqlType → List β → β) (types : List CqlType) :
    foldAll f types = types.map (fold f) := by
  induction types with
  | nil => rfl
  | cons t rest ih => rw [foldAll, ih, List.map_cons]

theorem foldFields_eq_map (f : CqlType → List β → β) (fields : List (String × CqlType)) :
    foldFields f fields = (fields.map Prod.snd).map (fold f) := by
  induction fields with
  | nil => rfl
  | cons field rest ih => rw [foldFields, ih, List.map_cons, List.map_cons]

/-- Recursion goes into the parts. -/
theorem fold_eq (f : CqlType → List β → β) (t : CqlType) :
    t.fold f = f t (t.parts.map (fold f)) := by
  cases t <;>
    simp only [fold, parts, foldAll_eq_map, foldFields_eq_map, List.map_cons, List.map_nil]

/-- The unknown classes in a type from left to right, with those in the types of fields. -/
def customs : CqlType → List String := fold fun t customs =>
  match t with
  | .custom className => [className]
  | _ => customs.flatten

/-- The unknown classes in a part of a type are unknown classes in the type. -/
theorem customs_subset_of_mem_parts {t part : CqlType} (h : part ∈ t.parts) :
    part.customs ⊆ t.customs := by
  have hsubset : part.customs ⊆ (t.parts.map customs).flatten :=
    fun _ hclass => List.mem_flatten.2 ⟨part.customs, List.mem_map_of_mem h, hclass⟩
  rw [customs, fold_eq _ t]
  cases t with
  | custom className => exact absurd h List.not_mem_nil
  | _ => exact hsubset

/-- The nodes of a type, each in front of those of its parts. -/
def nodes : CqlType → List CqlType := fold fun t nodes => t :: nodes.flatten

/-- The number of nodes on the longest way down a type. -/
def depth : CqlType → Nat := fold fun _ depths => 1 + depths.foldr max 0

/-- The number of nodes of a type. -/
def size : CqlType → Nat := fold fun _ sizes => 1 + sizes.sum

/-- A node of a type is the type itself or a node of one of its parts. -/
theorem mem_nodes_iff {node t : CqlType} :
    node ∈ t.nodes ↔ node = t ∨ ∃ part ∈ t.parts, node ∈ part.nodes := by
  have hnodes : t.nodes = t :: (t.parts.map nodes).flatten := fold_eq _ t
  rw [hnodes, List.mem_cons, ← List.flatMap_def, List.mem_flatMap]

theorem depth_eq (t : CqlType) : t.depth = 1 + (t.parts.map depth).foldr max 0 := fold_eq _ t

theorem size_eq (t : CqlType) : t.size = 1 + (t.parts.map size).sum := fold_eq _ t

end SchemaTypes.CqlType
