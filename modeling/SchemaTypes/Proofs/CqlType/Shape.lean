import SchemaTypes.Proofs.ClassName.Captures
import SchemaTypes.Proofs.CqlType.Wrappers

/-!
# The shape of the types that are read

Whatever a class name is, the user-defined types in the type that is read are frozen and name each
of their fields once, and unknown classes are kept as the units that were captured. The one
exception is an unknown class that is the whole class name: it is kept as it was written.

## Main definitions

* `HasShape`: the shape of a node.
* `WellShaped`, `ShapedFrom`: types all of whose nodes have this shape, and the exception.

## Main results

* `Layer.isUnit_of_mem_parts`, `Layer.nodup_names_of_udt`, `Layer.eq_or_isUnit_of_custom`: what one
  level captures.
* `shapedFrom_of_ofChars`: the shape of a type.
-/

namespace SchemaTypes.CqlType

open ClassName

namespace Layer

variable {decoder : Decoder} {sink : Sink} {className : List Char}

/-- The parts of a level are units. -/
theorem isUnit_of_mem_parts {layer : Layer (List Char)}
    (h : (ofClassName decoder sink className).outcome = .ok layer) {part : List Char}
    (hpart : part ∈ layer.parts) : IsUnit part := by
  obtain ⟨wrapper, inner, -, hlayer⟩ := ofArguments_of_ofClassName h
  rcases parts_of_ofArguments hlayer with hnone | ⟨q, harguments⟩ | ⟨t, q, ht, hfields⟩
  · rw [hnone] at hpart
    cases hpart
  · exact Scan.isUnit_of_mem_arguments harguments hpart
  · obtain ⟨r, hunits, -⟩ := Scan.fields_of_userType ht
    exact Scan.isUnit_of_mem_namedUnits hunits (hfields ▸ hpart)

/-- A user-defined type names each field once, also if its decoder gives one name for several
texts. -/
theorem nodup_names_of_udt {keyspace name : String} {fields : Bindings (List Char)}
    (h : (ofClassName decoder sink className).outcome = .ok (.udt keyspace name fields)) :
    fields.names.Nodup := by
  obtain ⟨wrapper, inner, -, hlayer⟩ := ofArguments_of_ofClassName h
  cases fromArguments_of_ofArguments hlayer with
  | udt ht =>
    obtain ⟨r, hunits, -⟩ := Scan.fields_of_userType ht
    exact Scan.nodup_names_of_namedUnits hunits

/-- An unknown class is the whole class name, or a unit inside a wrapper. -/
theorem eq_or_isUnit_of_custom {text : String}
    (h : (ofClassName decoder sink className).outcome = .ok (.custom text)) :
    text = String.ofList className ∨ IsUnit text.toList := by
  obtain ⟨wrapper, inner, hunwrap, hlayer⟩ := ofArguments_of_ofClassName h
  obtain rfl := eq_ofList_of_ofArguments hlayer
  rcases eq_or_soleArgument_of_unwrap hunwrap with rfl | hsole
  · exact .inl rfl
  · obtain ⟨units, q, hunits, hmem⟩ := arguments_of_soleArgument hsole
    rw [String.toList_ofList]
    exact .inr (Scan.isUnit_of_mem_arguments hunits hmem)

end Layer

/-- A user-defined type is frozen and names each field once. An unknown class is kept with no blank
in front and with balanced parentheses. -/
def HasShape : CqlType → Prop
  | .udt frozen _ _ fields => frozen = true ∧ (fields.map Prod.fst).Nodup
  | .custom className =>
    Balanced className.toList ∧ ∀ c ∈ className.toList.head?, isBlank c = false
  | _ => True

/-- All nodes of the type have their shape. -/
def WellShaped (t : CqlType) : Prop := ∀ node ∈ t.nodes, node.HasShape

theorem wellShaped_iff {t : CqlType} :
    t.WellShaped ↔ t.HasShape ∧ ∀ part ∈ t.parts, part.WellShaped := by
  constructor
  · intro h
    refine ⟨h t (mem_nodes_iff.2 (.inl rfl)), fun part hpart node hnode => ?_⟩
    exact h node (mem_nodes_iff.2 (.inr ⟨part, hpart, hnode⟩))
  · rintro ⟨hroot, hparts⟩ node hnode
    rcases mem_nodes_iff.1 hnode with rfl | ⟨part, hpart, hnode⟩
    · exact hroot
    · exact hparts part hpart node hnode

theorem hasShape_custom_of_isUnit {text : String} (h : IsUnit text.toList) :
    (custom text).HasShape :=
  ⟨h.balanced, h.isBlank_eq_false⟩

variable {decoder : Decoder} {sink : Sink} {className : List Char} {t : CqlType}

/-- What is known about the type of each class name: it is well-shaped, or it is an unknown class
that is the whole class name. -/
def ShapedFrom (className : List Char) (t : CqlType) : Prop :=
  t.WellShaped ∨ t = .custom (String.ofList className)

/-- The type of a unit is well-shaped also if the unit is kept as a whole. -/
theorem ShapedFrom.wellShaped (h : ShapedFrom className t) (hunit : IsUnit className) :
    t.WellShaped := by
  rcases h with h | rfl
  · exact h
  · have hroot : (custom (String.ofList className)).HasShape :=
      hasShape_custom_of_isUnit (by rwa [String.toList_ofList])
    exact wellShaped_iff.2 ⟨hroot, fun part hpart => absurd hpart List.not_mem_nil⟩

/-- The types of units are well-shaped. -/
theorem wellShaped_of_forall₂ {units : List (List Char)} {types : List CqlType}
    (h : List.Forall₂ ShapedFrom units types) (hunits : ∀ u ∈ units, IsUnit u) :
    ∀ t ∈ types, t.WellShaped := by
  induction h with
  | nil => simp
  | cons hfirst _ ih =>
    obtain ⟨hunit, hrest⟩ := List.forall_mem_cons.1 hunits
    exact List.forall_mem_cons.2 ⟨hfirst.wellShaped hunit, ih hrest⟩

/-- The root of a type has its shape, unless it is an unknown class that is the whole class name. -/
theorem hasShape_or_eq_custom {layer : Layer (List Char)} {typed : Layer CqlType}
    (h : (Layer.ofClassName decoder sink className).outcome = .ok layer)
    (hrel : Layer.Rel ShapedFrom layer typed) :
    (ofLayer typed).HasShape ∨ ofLayer typed = .custom (String.ofList className) := by
  cases hrel with
  | udt keyspace name hnames htypes =>
    refine .inl ⟨rfl, ?_⟩
    rw [← Bindings.names, hnames]
    exact Layer.nodup_names_of_udt h
  | custom text =>
    rcases Layer.eq_or_isUnit_of_custom h with rfl | hunit
    · exact .inr rfl
    · exact .inl (hasShape_custom_of_isUnit hunit)
  | _ => exact .inl trivial

/-- The type that is read is well-shaped, unless it is an unknown class that is the whole class
name. -/
theorem shapedFrom_of_ofChars (h : (ofChars decoder sink className).outcome = .ok t) :
    ShapedFrom className t := by
  refine ofChars_induct (P := ShapedFrom) (fun className layer typed hlayer hrel => ?_) className h
  -- The parts are units, so that the exception is none below the root.
  have hparts : ∀ t ∈ (ofLayer typed).parts, t.WellShaped := by
    rw [parts_ofLayer]
    exact wellShaped_of_forall₂ hrel.forall₂ fun part hpart =>
      Layer.isUnit_of_mem_parts hlayer hpart
  exact (hasShape_or_eq_custom hlayer hrel).imp_left fun hroot => wellShaped_iff.2 ⟨hroot, hparts⟩

end SchemaTypes.CqlType
