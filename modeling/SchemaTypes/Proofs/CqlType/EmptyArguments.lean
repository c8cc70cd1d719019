import SchemaTypes.Proofs.ClassName.EmptyUnits
import SchemaTypes.Proofs.CqlType.Wrappers

/-!
# Types of empty arguments

The empty text is a class name like any other: it is read as an unknown class, which is kept with
the empty text. So an argument that is empty is not missed when its list is taken apart, but becomes
a type. In the type of a class name, unknown classes of this kind are found if and only if an empty
argument was read, at whatever depth. The class name then has a gap: two commas, or a colon and what
ends its unit, with nothing between them.

## Main definitions

* `ReadInside`: the class names that are read inside a class name.

## Main results

* `Layer.eq_custom_empty_iff`: where the outermost level is such a class.
* `custom_empty_mem_nodes_iff`: where there is one in a type.
* `ReadInside.hasGap`: where an empty argument is read.
-/

namespace SchemaTypes.CqlType

open ClassName

variable {decoder : Decoder} {sink : Sink} {className inner : List Char}

/-- The class names that are read inside a class name: the argument of its wrapper, its own
arguments, and what is read inside of these. -/
inductive ReadInside (decoder : Decoder) (sink : Sink) : List Char → List Char → Prop
  | wrapped {className inner : List Char} {wrapper : Layer.Wrapper} :
      Layer.unwrap className = .ok (wrapper, inner) → wrapper ≠ .none →
      ReadInside decoder sink className inner
  | argument {className u : List Char} {layer : Layer (List Char)} :
      (Layer.ofClassName decoder sink className).outcome = .ok layer → u ∈ layer.parts →
      ReadInside decoder sink className u
  | further {className u inner : List Char} {layer : Layer (List Char)} :
      (Layer.ofClassName decoder sink className).outcome = .ok layer → u ∈ layer.parts →
      ReadInside decoder sink u inner → ReadInside decoder sink className inner

namespace Layer

/-- Without a wrapper the class name inside is the whole, and with one it is its only argument. -/
theorem none_or_soleArgument_of_unwrap {wrapper : Wrapper}
    (h : unwrap className = .ok (wrapper, inner)) :
    wrapper = .none ∧ inner = className ∨
      wrapper ≠ .none ∧ soleArgument className = .ok inner := by
  by_cases hbare : IsBare className
  · rw [unwrap_of_isBare hbare] at h
    cases h
    exact .inl ⟨rfl, rfl⟩
  · rw [unwrap_of_not_isBare hbare] at h
    cases hsole : soleArgument className with
    | error fault =>
      rw [hsole] at h
      cases h
    | ok argument =>
      rw [hsole] at h
      cases h
      exact .inr ⟨by split <;> simp, rfl⟩

/-- The empty text is an unknown class, and only this one is kept with the empty text. -/
theorem eq_custom_empty_iff {layer : Layer (List Char)}
    (h : (ofClassName decoder sink className).outcome = .ok layer) :
    layer = .custom "" ↔ ∃ wrapper, unwrap className = .ok (wrapper, []) := by
  obtain ⟨wrapper, inner, hunwrap, hlayer⟩ := ofArguments_of_ofClassName h
  constructor
  · rintro rfl
    have hinner : "".toList = (String.ofList inner).toList :=
      congrArg String.toList (eq_ofList_of_ofArguments hlayer)
    obtain rfl : [] = inner := hinner.trans String.toList_ofList
    exact ⟨wrapper, hunwrap⟩
  · rintro ⟨wrapper', hempty⟩
    cases hunwrap.symm.trans hempty
    have hhead : Head.ofName (Place.start []).skipBlanks.name = .unknown := by decide +kernel
    rw [hhead] at hlayer
    cases hlayer
    rfl

end Layer

/-- The class names that are read inside a class name, by its outermost level. -/
theorem readInside_iff {layer : Layer (List Char)}
    (h : (Layer.ofClassName decoder sink className).outcome = .ok layer) :
    ReadInside decoder sink className inner ↔
      (∃ wrapper, Layer.unwrap className = .ok (wrapper, inner) ∧ wrapper ≠ .none) ∨
        ∃ u ∈ layer.parts, u = inner ∨ ReadInside decoder sink u inner := by
  constructor
  · intro hinside
    cases hinside with
    | wrapped hunwrap hne => exact .inl ⟨_, hunwrap, hne⟩
    | argument hlayer hmem =>
      cases h.symm.trans hlayer
      exact .inr ⟨_, hmem, .inl rfl⟩
    | further hlayer hmem hfurther =>
      cases h.symm.trans hlayer
      exact .inr ⟨_, hmem, .inr hfurther⟩
  · rintro (⟨wrapper, hunwrap, hne⟩ | ⟨u, hmem, rfl | hfurther⟩)
    · exact .wrapped hunwrap hne
    · exact .argument h hmem
    · exact .further h hmem hfurther

/-- Of related lists, one has an element of a kind if and only if the other has. -/
theorem exists_mem_iff_of_forall₂ {α β : Type} {P : α → Prop} {Q : β → Prop} {as : List α}
    {bs : List β} (h : List.Forall₂ (fun a b => Q b ↔ P a) as bs) :
    (∃ b ∈ bs, Q b) ↔ ∃ a ∈ as, P a := by
  induction h with
  | nil => simp
  | cons hfirst _ ih => simp only [List.exists_mem_cons_iff, hfirst, ih]

/-- A type has an unknown class without text if and only if the class name is empty, or an empty one
is read inside it. -/
theorem custom_empty_mem_nodes_iff {t : CqlType}
    (h : (ofChars decoder sink className).outcome = .ok t) :
    custom "" ∈ t.nodes ↔ className = [] ∨ ReadInside decoder sink className [] := by
  refine ofChars_induct (P := fun className t =>
    custom "" ∈ t.nodes ↔ className = [] ∨ ReadInside decoder sink className [])
    (fun className layer typed hlayer hrel => ?_) className h
  have hroot : custom "" = ofLayer typed ↔ layer = .custom "" := by
    cases hrel with
    | custom text => simp [ofLayer, eq_comm]
    | _ => simp [ofLayer]
  have hempty : (∃ wrapper, Layer.unwrap className = .ok (wrapper, [])) ↔
      className = [] ∨ ∃ wrapper, Layer.unwrap className = .ok (wrapper, []) ∧ wrapper ≠ .none := by
    constructor
    · rintro ⟨wrapper, hunwrap⟩
      by_cases hne : wrapper = .none
      · subst hne
        have hwhole := (Layer.none_or_soleArgument_of_unwrap hunwrap).resolve_right (·.1 rfl)
        exact .inl hwhole.2.symm
      · exact .inr ⟨wrapper, hunwrap, hne⟩
    · rintro (rfl | ⟨wrapper, hunwrap, -⟩)
      · exact ⟨.none, by decide +kernel⟩
      · exact ⟨wrapper, hunwrap⟩
  -- The root is of this kind if a text around it is empty, a part if it is empty or has one inside.
  rw [mem_nodes_iff, parts_ofLayer, hroot, Layer.eq_custom_empty_iff hlayer, hempty,
    exists_mem_iff_of_forall₂ hrel.forall₂, readInside_iff hlayer, or_assoc]

/-- What stands behind the name of a class name is the end of it. -/
theorem unread_afterName_suffix (className : List Char) :
    (Place.start className).skipBlanks.afterName.unread <:+ className := by
  rw [Place.unread_afterName, Place.unread_skipBlanks]
  exact (List.dropWhile_suffix _).trans (List.dropWhile_suffix _)

namespace Layer

/-- A class name inside a wrapper that has a gap, or is empty, leaves a gap in the whole. -/
theorem hasGap_of_unwrap {wrapper : Wrapper} (h : unwrap className = .ok (wrapper, inner))
    (hgap : wrapper ≠ .none ∧ inner = [] ∨ HasGap inner) : HasGap className := by
  rcases none_or_soleArgument_of_unwrap h with ⟨rfl, rfl⟩ | ⟨-, hsole⟩
  · exact hgap.resolve_left fun hempty => hempty.1 rfl
  · obtain ⟨units, q, hunits, hmem⟩ := arguments_of_soleArgument hsole
    exact (Scan.hasGap_of_mem_arguments hunits hmem (hgap.imp_left And.right)).mono
      (unread_afterName_suffix className).isInfix

/-- A part that has a gap, or is empty, leaves a gap in the class name. -/
theorem hasGap_of_mem_parts {layer : Layer (List Char)}
    (h : (ofClassName decoder sink className).outcome = .ok layer) {u : List Char}
    (hu : u ∈ layer.parts) (hgap : u = [] ∨ HasGap u) : HasGap className := by
  obtain ⟨wrapper, inner, hunwrap, hlayer⟩ := ofArguments_of_ofClassName h
  refine hasGap_of_unwrap hunwrap (.inr ?_)
  have hpart := (unread_afterName_suffix inner).isInfix
  rcases parts_of_ofArguments hlayer with hnone | ⟨q, harguments⟩ | ⟨t, q, ht, hfields⟩
  · rw [hnone] at hu
    cases hu
  · exact (Scan.hasGap_of_mem_arguments harguments hu hgap).mono hpart
  · exact (Scan.hasGap_of_mem_userType ht (hfields ▸ hu) hgap).mono hpart

end Layer

/-- Where an empty class name is read inside a class name, the text has a gap. -/
theorem ReadInside.hasGap (h : ReadInside decoder sink className inner)
    (hgap : inner = [] ∨ HasGap inner) : HasGap className := by
  -- From the inside outwards: a gap in what is read is one in the text that it is read from.
  induction h with
  | wrapped hunwrap hne => exact Layer.hasGap_of_unwrap hunwrap (hgap.imp_left (⟨hne, ·⟩))
  | argument hlayer hmem => exact Layer.hasGap_of_mem_parts hlayer hmem hgap
  | further hlayer hmem _ ih => exact Layer.hasGap_of_mem_parts hlayer hmem (.inr (ih hgap))

end SchemaTypes.CqlType
