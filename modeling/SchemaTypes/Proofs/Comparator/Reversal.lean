import SchemaTypes.Proofs.CqlType.Kinds
import SchemaTypes.Proofs.Comparator.RoundTrip

/-!
# Reversal and the type of a component

A component that is reversed orders cells from the greatest to the least. Its type is that of the
class name inside the wrapper, unless this one has a wrapper of its own: the outer of two wrappers
is taken off, and the inner one is an unknown class.

## Main definitions

* `CqlType.reversedText`, `CqlType.typeOfReversed`: the text of a reversed expression, and the type
  it is read as.

## Main results

* `CqlType.outcome_ofChars_reversedText`: the type of a reversed expression.
* `CqlType.typeOfReversed_eq_type_iff`: reversal keeps the type if there is no wrapper inside.
* `Comparator.ofClassName_reversedText_iff`: the same for an expression on its own and for a
  component of a composite.
-/

namespace SchemaTypes

namespace CqlType

open ClassName Layer

/-- The text of an expression inside the wrapper that reverses. -/
def reversedText (e : Expr) : List Char := Wrapper.reversed.around e.render

/-- The type that a reversed expression is read as: that of the expression, unless the expression
has a wrapper of its own. -/
def typeOfReversed (e : Expr) : CqlType :=
  if e.wrapper = .none then e.type else .custom (String.ofList e.render)

theorem isUnit_reversedText (e : Expr) : IsUnit (reversedText e) ∧ reversedText e ≠ [] :=
  Wrapper.reversed.isUnit_around e.isUnit_render

theorem isReversed_reversedText (e : Expr) : isReversed (reversedText e) = true :=
  Wrapper.reversed.isReversed_around (by simp)

theorem isDynamicColumns_reversedText (e : Expr) : isDynamicColumns (reversedText e) = false :=
  (isDynamicColumns_append (head_listText _)).trans (by decide +kernel)

/-- Behind the wrapper that reverses, a name that announces nothing is an unknown class. -/
theorem outcome_ofChars_around_of_unknown {decoder : Decoder} {word group : List Char}
    (hword : IsName word) (hgroup : IsGroup group) (hunknown : Head.ofName word = .unknown)
    {sink : Sink} (hsink : sink.Accepts) :
    (ofChars decoder sink (Wrapper.reversed.around (word ++ group))).outcome =
      .ok (.custom (String.ofList (word ++ group))) := by
  have hne : word ++ group ≠ [] := by
    obtain ⟨inner, -, rfl⟩ := hgroup
    exact List.append_ne_nil_of_right_ne_nil _ (List.cons_ne_nil _ _)
  -- The outer wrapper is taken off, and the name behind it is looked up as it stands.
  have hunwrap : unwrap (Wrapper.reversed.around (word ++ group)) =
      .ok (.reversed, word ++ group) :=
    unwrap_around ⟨⟨word, group, rfl, hword, .inr hgroup⟩, hne⟩ (by simp)
  obtain ⟨hskip, hname, -⟩ := Place.start_unit hword (.inr hgroup)
  rw [ofChars_of_unwrap hunwrap]
  refine outcome_ofUnwrapped_of_unknown hsink ?_
  rw [hskip, hname, hunknown]

/-- A reversed expression is read with the type of the expression, or as an unknown class. -/
theorem outcome_ofChars_reversedText {e : Expr} (he : e.DistinctFields) {sink : Sink}
    (hsink : sink.Accepts) :
    (ofChars .hexDump sink (reversedText e)).outcome = .ok (typeOfReversed e) := by
  cases e with
  | mk wrapper bare =>
    have hunit : IsUnit (bare.mapParts Expr.render).text := by
      simpa only [Expr.render_mk, Wrapper.around] using (Expr.mk .none bare).isUnit_render.1
    have hgroup := isGroup_listText_singleton hunit
    rw [reversedText, typeOfReversed, Expr.render_mk]
    cases wrapper with
    | none =>
      -- The text is that of an expression with the other wrapper, and no wrapper changes the type.
      have hreversed : (Expr.mk .reversed bare).DistinctFields :=
        (Expr.distinctFields_mk _ _).2 ((Expr.distinctFields_mk _ _).1 he)
      have hread := outcome_ofChars_render hreversed hsink
      rw [Expr.render_mk, Expr.type_mk] at hread
      rw [if_pos (show (Expr.mk .none bare).wrapper = .none from rfl), Expr.type_mk]
      exact hread
    | frozen =>
      -- Only one wrapper is looked for, and the name of a wrapper announces no type.
      exact outcome_ofChars_around_of_unknown isName_frozenClass hgroup (by decide +kernel) hsink
    | reversed =>
      exact outcome_ofChars_around_of_unknown isName_reversedClass hgroup (by decide +kernel) hsink

/-- No expression with a wrapper has the type of an unknown class with the text of the wrapper. -/
theorem type_ne_custom_render {e : Expr} (h : e.wrapper ≠ .none) :
    e.type ≠ .custom (String.ofList e.render) := by
  cases e with
  | mk wrapper bare =>
    cases bare with
    | unknown u =>
      intro heq
      have htext : u.name ++ u.group = wrapper.around (u.name ++ u.group) := by
        have := congrArg String.toList (CqlType.custom.inj heq)
        rwa [Expr.render_mk, String.toList_ofList, String.toList_ofList] at this
      -- The type keeps the text of the class, which is shorter than the text with its wrapper.
      have hlength := congrArg List.length htext
      cases wrapper with
      | none => exact h rfl
      | frozen =>
        simp [Wrapper.around, listText] at hlength
        omega
      | reversed =>
        simp [Wrapper.around, listText] at hlength
        omega
    -- Any other class stands for a type of its own kind.
    | _ =>
      rw [Expr.type_mk]
      intro heq
      cases heq

/-- Reversal keeps the type of an expression if and only if there is no wrapper inside. -/
theorem typeOfReversed_eq_type_iff (e : Expr) : typeOfReversed e = e.type ↔ e.wrapper = .none := by
  rw [typeOfReversed]
  split
  · next h => exact ⟨fun _ => h, fun _ => rfl⟩
  · next h => exact ⟨fun heq => absurd heq.symm (type_ne_custom_render h), fun hn => absurd hn h⟩

end CqlType

namespace Comparator

open ClassName CqlType

/-- In a composite a reversed expression has the type that it has on its own. -/
theorem outcome_ofChars_reversedText_component {e : Expr} (he : e.DistinctFields)
    {before after : List Expr} (hbefore : ∀ e ∈ before, e.DistinctFields)
    (hafter : ∀ e ∈ after, e.DistinctFields) {block : Option (List (String × Expr))}
    (hblock : ∀ columns ∈ block, WritableBlock columns)
    (hlast : block = none → ∀ e ∈ after.getLast?, ¬ dynamicColumnsClass <+: e.render) {sink : Sink}
    (hsink : sink.Accepts) :
    ∃ comparator,
      (ofChars .hexDump sink (compositeText (before.map Expr.render ++ reversedText e ::
        after.map Expr.render) block)).outcome = .ok comparator ∧
      comparator.components[before.length]? = some ⟨typeOfReversed e, true⟩ := by
  -- The components as pairs of a text and its type, since the reversed one is no expression
  -- if it has two wrappers.
  let written : Expr → List Char × CqlType := fun e => (e.render, e.type)
  let parts := before.map written ++ (reversedText e, typeOfReversed e) :: after.map written
  have htexts : parts.map Prod.fst =
      before.map Expr.render ++ reversedText e :: after.map Expr.render := by
    rw [List.map_append, List.map_cons, List.map_map, List.map_map]
    rfl
  have hunits : ∀ part ∈ parts, IsUnit part.1 ∧ part.1 ≠ [] := by
    simp only [parts, List.forall_mem_append, List.forall_mem_cons, List.forall_mem_map]
    exact ⟨fun e _ => e.isUnit_render, isUnit_reversedText e, fun e _ => e.isUnit_render⟩
  have hread : ∀ part ∈ parts, (CqlType.ofChars .hexDump sink part.1).outcome = .ok part.2 := by
    simp only [parts, List.forall_mem_append, List.forall_mem_cons, List.forall_mem_map]
    exact ⟨fun e hmem => outcome_ofChars_render (hbefore e hmem) hsink,
      outcome_ofChars_reversedText he hsink,
      fun e hmem => outcome_ofChars_render (hafter e hmem) hsink⟩
  have hnotBlock : block = none → ∀ part ∈ parts.getLast?, isDynamicColumns part.1 = false := by
    intro hnone part hpart
    rw [List.getLast?_append, List.getLast?_cons, List.getLast?_map] at hpart
    -- The last component is the last one behind the reversed one, or this one itself.
    cases hafterLast : after.getLast? with
    | none =>
      rw [hafterLast] at hpart
      cases hpart
      exact isDynamicColumns_reversedText e
    | some last =>
      rw [hafterLast] at hpart
      cases hpart
      exact isDynamicColumns_render (hlast hnone last hafterLast)
  have hcomposite := outcome_ofChars_compositeText hunits hread hblock (by simp [parts]) hnotBlock
    hsink
  rw [htexts] at hcomposite
  refine ⟨_, hcomposite, ?_⟩
  simp [parts, isReversed_reversedText]

/-- Reversal is transparent where it is the only wrapper: on its own and as a component of a
composite, a reversed expression has the type of the expression if and only if the expression has
no wrapper of its own. Otherwise it is kept as an unknown class. -/
theorem ofClassName_reversedText_iff (e : Expr) (he : e.DistinctFields) (before after : List Expr)
    (hbefore : ∀ e ∈ before, e.DistinctFields) (hafter : ∀ e ∈ after, e.DistinctFields)
    (block : Option (List (String × Expr))) (hblock : ∀ columns ∈ block, WritableBlock columns)
    (hlast : block = none → ∀ e ∈ after.getLast?, ¬ dynamicColumnsClass <+: e.render) (sink : Sink)
    (hsink : sink.Accepts) :
    ∃ type reversed comparator,
      (CqlType.ofClassName .hexDump sink (String.ofList e.render)).outcome = .ok type ∧
      (CqlType.ofClassName .hexDump sink (String.ofList (reversedText e))).outcome =
        .ok reversed ∧
      (ofClassName .hexDump sink (String.ofList (compositeText (before.map Expr.render ++
        reversedText e :: after.map Expr.render) block))).outcome = .ok comparator ∧
      comparator.components[before.length]? = some ⟨reversed, true⟩ ∧
      (reversed = type ↔ e.wrapper = .none) ∧
      (e.wrapper ≠ .none → reversed = .custom (String.ofList e.render)) := by
  obtain ⟨comparator, hcomparator, hcomponent⟩ :=
    outcome_ofChars_reversedText_component he hbefore hafter hblock hlast hsink
  refine ⟨e.type, typeOfReversed e, comparator, ?_, ?_, ?_, hcomponent,
    typeOfReversed_eq_type_iff e, fun h => if_neg h⟩
  · rw [CqlType.ofClassName, String.toList_ofList]
    exact outcome_ofChars_render he hsink
  · rw [CqlType.ofClassName, String.toList_ofList]
    exact outcome_ofChars_reversedText he hsink
  · rw [ofClassName, String.toList_ofList]
    exact hcomparator

/-- A list keeps its type, on its own and behind an integer. -/
theorem ofClassName_reversedText_list :
    ∃ type comparator,
      (CqlType.ofClassName .hexDump .collect (String.ofList
        (CollectionKind.list.className ++ listText [nativeClass .int]))).outcome = .ok type ∧
      (CqlType.ofClassName .hexDump .collect (String.ofList (reversedClass ++ listText
        [CollectionKind.list.className ++ listText [nativeClass .int]]))).outcome = .ok type ∧
      (ofClassName .hexDump .collect (String.ofList (compositeClass ++ listText [nativeClass .int,
        reversedClass ++ listText [CollectionKind.list.className ++ listText
          [nativeClass .int]]]))).outcome = .ok comparator ∧
      comparator.components[1]? = some ⟨type, true⟩ := by
  obtain ⟨type, reversed, comparator, htype, hreversed, hcomparator, hcomponent, hiff, -⟩ :=
    ofClassName_reversedText_iff (.mk .none (.list (.mk .none (.native .int))))
      (by simp)
      [.mk .none (.native .int)] []
      (by simp) (by simp) none (by simp)
      (by simp) .collect Sink.accepts_collect
  obtain rfl := hiff.2 rfl
  exact ⟨_, comparator, htype, hreversed, hcomparator, hcomponent⟩

/-- A frozen list does not keep its type. -/
theorem ofClassName_reversedText_frozen_list :
    (CqlType.ofClassName .hexDump .collect (String.ofList (frozenClass ++ listText
      [CollectionKind.list.className ++ listText [nativeClass .int]]))).outcome =
        .ok (.list true (.native .int)) ∧
    (CqlType.ofClassName .hexDump .collect (String.ofList (reversedClass ++ listText [frozenClass ++
      listText [CollectionKind.list.className ++ listText [nativeClass .int]]]))).outcome =
        .ok (.custom (String.ofList (frozenClass ++ listText
          [CollectionKind.list.className ++ listText [nativeClass .int]]))) := by
  let e : Expr := .mk .frozen (.list (.mk .none (.native .int)))
  have he : e.DistinctFields := by
    simp [e]
  have hsink := Sink.accepts_collect
  simp only [CqlType.ofClassName, String.toList_ofList]
  exact ⟨outcome_ofChars_render he hsink, outcome_ofChars_reversedText he hsink⟩

end Comparator

end SchemaTypes
