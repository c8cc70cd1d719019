import Mathlib.Algebra.GroupWithZero.Nat
import SchemaTypes.Proofs.ClassName.Nesting
import SchemaTypes.Proofs.CqlType.Induction

/-!
# Types are bounded by their class names

A type that is read is nested no deeper than the parentheses of its class name, and has no more
nodes than the class name has characters. Both hold by induction over reading: at each level the
class names of the parts are nested less deep than the whole, and take up less than the whole
together.

## Main results

* `Layer.nesting_lt_of_mem_parts`, `Layer.sum_le_of_parts`: the bounds at one level.
* `depth_le_nesting`, `size_le_room`: the bounds of a type.
-/

namespace SchemaTypes.CqlType

open ClassName

namespace Layer

variable {decoder : Decoder} {sink : Sink} {className : List Char} {layer : Layer (List Char)}

/-- What stands behind the name of a class is nested no deeper than the whole. -/
theorem nesting_afterName_le (className : List Char) :
    nesting (Place.start className).skipBlanks.afterName.unread ≤ nesting className := by
  rw [Place.nesting_afterName]
  exact (Place.start className).nesting_skipBlanks_le

/-- What stands behind the name of a class takes up no more than the whole. -/
theorem room_afterName_le (className : List Char) :
    room (Place.start className).skipBlanks.afterName.unread ≤ room className := by
  have := (Place.start className).skipBlanks.length_afterName_le
  have := (Place.start className).length_skipBlanks_le
  rw [Place.unread_start] at this
  exact room_le_room (by omega)

/-- The class name inside a wrapper is nested no deeper than the whole. -/
theorem nesting_le_of_unwrap {inner : List Char} {wrapper : Wrapper}
    (h : unwrap className = .ok (wrapper, inner)) : nesting inner ≤ nesting className := by
  rcases eq_or_soleArgument_of_unwrap h with rfl | hsole
  · exact Nat.le_refl _
  · obtain ⟨units, q, hunits, hmem⟩ := arguments_of_soleArgument hsole
    exact (Scan.nesting_lt_of_mem_arguments hunits hmem).le.trans (nesting_afterName_le className)

/-- The parts of a layer are nested less deep than the class name. -/
theorem nesting_lt_of_mem_parts (h : (ofClassName decoder sink className).outcome = .ok layer)
    {part : List Char} (hpart : part ∈ layer.parts) : nesting part < nesting className := by
  obtain ⟨wrapper, inner, hunwrap, hlayer⟩ := ofArguments_of_ofClassName h
  have hinner := (nesting_afterName_le inner).trans (nesting_le_of_unwrap hunwrap)
  rcases parts_of_ofArguments hlayer with hnone | ⟨q, harguments⟩ | ⟨t, q, ht, hfields⟩
  · rw [hnone] at hpart
    cases hpart
  · exact (Scan.nesting_lt_of_mem_arguments harguments hpart).trans_le hinner
  · rw [hfields] at hpart
    exact (Scan.nesting_lt_of_mem_userType ht hpart).trans_le hinner

/-- There is room for the parts of a layer in the class name, and for one node more. -/
theorem sum_le_of_parts (h : (ofClassName decoder sink className).outcome = .ok layer) :
    (layer.parts.map room).sum + 1 ≤ room className := by
  obtain ⟨wrapper, inner, hunwrap, hlayer⟩ := ofArguments_of_ofClassName h
  have hbehind := (room_afterName_le inner).trans (room_le_room (length_le_of_unwrap hunwrap))
  rcases parts_of_ofArguments hlayer with hnone | ⟨q, harguments⟩ | ⟨t, q, ht, hfields⟩
  · rw [hnone]
    exact Nat.le_max_left 1 _
  · exact (Scan.sum_le_of_arguments harguments).trans hbehind
  · rw [hfields]
    exact (Scan.sum_le_of_userType ht).trans hbehind

end Layer

/-- Types that are nested no deeper than their class names, which are nested less deep than `n`. -/
theorem foldr_depth_le {parts : List (List Char)} {types : List CqlType} {n : Nat}
    (h : List.Forall₂ (fun part t => t.depth ≤ 1 + nesting part) parts types)
    (hparts : ∀ part ∈ parts, nesting part < n) : (types.map depth).foldr max 0 ≤ n := by
  induction h with
  | nil => exact Nat.zero_le n
  | cons hfirst _ ih =>
    obtain ⟨hless, hrest⟩ := List.forall_mem_cons.1 hparts
    have := ih hrest
    rw [List.map_cons, List.foldr_cons]
    omega

/-- Types that take up no more than their class names do so together. -/
theorem sum_size_le {parts : List (List Char)} {types : List CqlType}
    (h : List.Forall₂ (fun part t => t.size ≤ room part) parts types) :
    (types.map size).sum ≤ (parts.map room).sum := by
  induction h with
  | nil => exact Nat.le_refl 0
  | cons hfirst _ ih =>
    rw [List.map_cons, List.map_cons, List.sum_cons, List.sum_cons]
    omega

variable {decoder : Decoder} {sink : Sink} {className : List Char} {t : CqlType}

/-- A type is nested no deeper than the parentheses of its class name. -/
theorem depth_le_nesting (h : (ofChars decoder sink className).outcome = .ok t) :
    t.depth ≤ 1 + nesting className := by
  refine ofChars_induct (P := fun className t => t.depth ≤ 1 + nesting className)
    (fun className layer typed hlayer hparts => ?_) className h
  rw [depth_eq, parts_ofLayer]
  exact Nat.add_le_add_left (foldr_depth_le hparts.forall₂
    fun part hpart => Layer.nesting_lt_of_mem_parts hlayer hpart) 1

/-- A type has no more nodes than its class name has characters. -/
theorem size_le_room (h : (ofChars decoder sink className).outcome = .ok t) :
    t.size ≤ room className := by
  refine ofChars_induct (P := fun className t => t.size ≤ room className)
    (fun className layer typed hlayer hparts => ?_) className h
  have := Layer.sum_le_of_parts hlayer
  have := sum_size_le hparts.forall₂
  rw [size_eq, parts_ofLayer]
  omega

end SchemaTypes.CqlType
