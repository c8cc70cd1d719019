import SchemaTypes.Proofs.CqlType.Outcome
import SchemaTypes.Proofs.CqlType.Tree

/-!
# Induction over reading

A level of types is of the same kind as the level of class names from which it is read, with one
type for each class name and with the same names of fields. The parts of a level are shorter class
names than the whole. So what holds of a class name and its type, if it holds of the parts, holds of
every class name that is read.

## Main definitions

* `Layer.Rel`: levels of the same kind, with related parts.

## Main results

* `Layer.rel_of_traverse`: the parts of a level are read one for one.
* `ofChars_induct`: induction over reading.
-/

namespace SchemaTypes.CqlType

open ClassName

/-- As many values are read for the values of bindings as there are names for them. -/
theorem names_values_of_outcome_each {α β : Type} {bindings : Bindings α}
    {read : (a : α) → a ∈ bindings.values → Reading β} {bs : List β}
    (h : (Reading.each bindings.values read).outcome = .ok bs) :
    Bindings.names (bindings.names.zip bs) = bindings.names ∧
      Bindings.values (bindings.names.zip bs) = bs := by
  have hlength : bindings.names.length = bs.length := by
    rw [Reading.length_of_outcome_each h, Bindings.names, Bindings.values, List.length_map,
      List.length_map]
  exact ⟨List.map_fst_zip (Nat.le_of_eq hlength), List.map_snd_zip (Nat.le_of_eq hlength.symm)⟩

/-- What is read for the values of bindings, one for one, is bound to the same names. -/
theorem bindings_of_outcome_each {α β : Type} {bindings : Bindings α}
    {read : (a : α) → a ∈ bindings.values → Reading β} {bs : List β}
    (h : (Reading.each bindings.values read).outcome = .ok bs) :
    Bindings.names (bindings.names.zip bs) = bindings.names ∧
      List.Forall₂ (fun a b => ∃ ha, (read a ha).outcome = .ok b) bindings.values
        (Bindings.values (bindings.names.zip bs)) := by
  obtain ⟨hnames, hvalues⟩ := names_values_of_outcome_each h
  refine ⟨hnames, ?_⟩
  rw [hvalues]
  exact Reading.forall₂_of_outcome_each h

namespace Layer

variable {α β : Type} {P Q : α → β → Prop} {layer : Layer α} {typed : Layer β}

/-- The levels are of the same kind, and their parts are related one for one. -/
inductive Rel (P : α → β → Prop) : Layer α → Layer β → Prop
  | native (t : NativeType) : Rel P (.native t) (.native t)
  | list (frozen : Bool) {a : α} {b : β} : P a b → Rel P (.list frozen a) (.list frozen b)
  | set (frozen : Bool) {a : α} {b : β} : P a b → Rel P (.set frozen a) (.set frozen b)
  | map (frozen : Bool) {key value : α} {key' value' : β} : P key key' → P value value' →
      Rel P (.map frozen key value) (.map frozen key' value')
  | udt (keyspace name : String) {fields : Bindings α} {types : Bindings β} :
      types.names = fields.names → List.Forall₂ P fields.values types.values →
      Rel P (.udt keyspace name fields) (.udt keyspace name types)
  | tuple {as : List α} {bs : List β} : List.Forall₂ P as bs → Rel P (.tuple as) (.tuple bs)
  | custom (className : String) : Rel P (.custom className) (.custom className)

namespace Rel

theorem mono (h : Rel P layer typed) (hPQ : ∀ a b, P a b → Q a b) : Rel Q layer typed := by
  cases h with
  | native t => exact .native t
  | list frozen hfirst => exact .list frozen (hPQ _ _ hfirst)
  | set frozen hfirst => exact .set frozen (hPQ _ _ hfirst)
  | map frozen hkey hvalue => exact .map frozen (hPQ _ _ hkey) (hPQ _ _ hvalue)
  | udt keyspace name hnames htypes => exact .udt keyspace name hnames (htypes.imp hPQ)
  | tuple hparts => exact .tuple (hparts.imp hPQ)
  | custom className => exact .custom className

/-- The parts are related in their order. -/
theorem forall₂ (h : Rel P layer typed) : List.Forall₂ P layer.parts typed.parts := by
  cases h with
  | native t => exact .nil
  | list frozen hfirst => exact .cons hfirst .nil
  | set frozen hfirst => exact .cons hfirst .nil
  | map frozen hkey hvalue => exact .cons hkey (.cons hvalue .nil)
  | udt keyspace name _ htypes => exact htypes
  | tuple hparts => exact hparts
  | custom className => exact .nil

end Rel

/-- The parts of a level are read one for one, and the level stays of its kind. -/
theorem rel_of_traverse {read : (a : α) → a ∈ layer.parts → Reading β}
    (h : (layer.traverse read).outcome = .ok typed) :
    Rel (fun a b => ∃ ha, (read a ha).outcome = .ok b) layer typed := by
  cases layer with
  | native t =>
    cases h
    exact .native t
  | custom className =>
    cases h
    exact .custom className
  | list frozen element =>
    obtain ⟨b, hb, h⟩ := Reading.outcome_bind_eq_ok_iff.1 h
    cases h
    exact .list frozen ⟨_, hb⟩
  | set frozen element =>
    obtain ⟨b, hb, h⟩ := Reading.outcome_bind_eq_ok_iff.1 h
    cases h
    exact .set frozen ⟨_, hb⟩
  | map frozen key value =>
    obtain ⟨k, hk, h⟩ := Reading.outcome_bind_eq_ok_iff.1 h
    obtain ⟨v, hv, h⟩ := Reading.outcome_bind_eq_ok_iff.1 h
    cases h
    exact .map frozen ⟨_, hk⟩ ⟨_, hv⟩
  | udt keyspace name fields =>
    obtain ⟨types, htypes, h⟩ := Reading.outcome_bind_eq_ok_iff.1 h
    cases h
    obtain ⟨hnames, hread⟩ := bindings_of_outcome_each htypes
    exact .udt keyspace name hnames hread
  | tuple elements =>
    obtain ⟨types, htypes, h⟩ := Reading.outcome_bind_eq_ok_iff.1 h
    cases h
    exact .tuple (Reading.forall₂_of_outcome_each htypes)

end Layer

theorem parts_ofLayer (layer : Layer CqlType) : (ofLayer layer).parts = layer.parts := by
  cases layer <;> rfl

/-- Induction over reading: what holds of a class name and its type if it holds of the parts. -/
theorem ofChars_induct {decoder : Decoder} {sink : Sink} {P : List Char → CqlType → Prop}
    (step : ∀ className layer typed,
      (Layer.ofClassName decoder sink className).outcome = .ok layer →
      Layer.Rel P layer typed → P className (ofLayer typed))
    (className : List Char) {t : CqlType} (h : (ofChars decoder sink className).outcome = .ok t) :
    P className t := by
  rw [ofChars_eq_bind, Reading.outcome_bind_eq_ok_iff] at h
  obtain ⟨layer, hlayer, h⟩ := h
  obtain ⟨typed, htyped, h⟩ := Reading.outcome_bind_eq_ok_iff.1 h
  cases h
  -- The parts have shorter class names, for which the statement holds by recursion.
  refine step className layer typed hlayer ?_
  refine (Layer.rel_of_traverse htyped).mono fun part t ⟨hmem, hread⟩ => ?_
  exact ofChars_induct step part hread
termination_by className.length
decreasing_by exact Layer.length_lt_of_mem_parts hlayer hmem

end SchemaTypes.CqlType
