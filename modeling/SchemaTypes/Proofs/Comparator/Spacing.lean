import SchemaTypes.Proofs.Comparator.RoundTrip
import SchemaTypes.Proofs.CqlType.Spacing

/-!
# Blanks in composites

A composite is read through the blanks between its pieces, and so is the block of dynamic columns
behind its components. Whether the last unit is a block is seen from how it starts, where no blank
can stand.

## Main definitions

* `blockPhrase`, `compositePhrase`: blocks and composites in pieces.

## Main results

* `ofChars_of_isPadding`: the comparator of a composite with blanks.
* `ofClassName_of_isPadding`: the type of an expression with blanks and the comparator of a
  composite with blanks.
-/

namespace SchemaTypes.Comparator

open ClassName CqlType

/-- A block of dynamic columns in pieces. -/
def blockPhrase (columns : List (String × Expr)) : Phrase :=
  .call dynamicColumnsClass ([[',']].intercalate (fieldPieces Expr.phrase columns))
    isName_dynamicColumnsClass (inPackage_ne_nil _)
    (.intercalate (List.forall_mem_map.2 fun column _ =>
      isBalanced_namedPieces column.1 column.2.phrase))

/-- The units of a composite in pieces: the components, and the block if there is one. -/
def unitPhrases (es : List Expr) (block : Option (List (String × Expr))) : List Phrase :=
  es.map Expr.phrase ++ (block.map blockPhrase).toList

/-- A composite in pieces. -/
def compositePhrase (es : List Expr) (block : Option (List (String × Expr))) : Phrase :=
  .call compositeClass ([[',']].intercalate ((unitPhrases es block).map Phrase.pieces))
    isName_compositeClass (inPackage_ne_nil _)
    (.intercalate (List.forall_mem_map.2 fun phrase _ => phrase.isBalanced_pieces))

theorem text_blockPhrase (columns : List (String × Expr)) :
    (blockPhrase columns).text = blockText columns := by
  refine congrArg (dynamicColumnsClass ++ ·) ((flatten_group _).trans (congrArg listText ?_))
  simp only [fieldPieces, List.map_map, Function.comp_def, flatten_namedPieces, Expr.text_phrase]

theorem map_text_unitPhrases (es : List Expr) (block : Option (List (String × Expr))) :
    (unitPhrases es block).map Phrase.text =
      es.map Expr.render ++ (block.map blockText).toList := by
  cases block with
  | none => simp [unitPhrases, Expr.text_phrase]
  | some columns => simp [unitPhrases, Expr.text_phrase, text_blockPhrase]

/-- Without blanks the pieces are the text of the composite. -/
theorem text_compositePhrase (es : List Expr) (block : Option (List (String × Expr))) :
    (compositePhrase es block).text = compositeText (es.map Expr.render) block := by
  refine congrArg (compositeClass ++ ·) ((flatten_group _).trans (congrArg listText ?_))
  rw [List.map_map, ← map_text_unitPhrases]
  exact List.map_congr_left fun phrase _ => phrase.flatten_pieces

/-- A block is read alike with blanks and without. -/
theorem readDynamicColumns_of_isPadding {columns : List (String × Expr)} (h : WritableBlock columns)
    {padded : List Char} (hpadded : (blockPhrase columns).IsPadding padded) (sink : Sink) :
    readDynamicColumns .hexDump sink padded =
      readDynamicColumns .hexDump sink (blockText columns) := by
  have hread : ∀ text, (blockPhrase columns).IsPadding text →
      readDynamicColumns .hexDump sink text = (do
        let types ← Reading.each (columns.map fun column => column.2.render)
          fun unit _ => CqlType.ofChars .hexDump sink unit
        pure ((columns.map Prod.fst).zip types)) := by
    rintro _ ⟨blanks, s, hblanks, hs, rfl⟩
    have hbalanced : IsBalanced ([[',']].intercalate (fieldPieces Expr.phrase columns)) :=
      .intercalate (List.forall_mem_map.2 fun column _ =>
        isBalanced_namedPieces column.1 column.2.phrase)
    have hunread := Layer.unread_afterName_of_spread isName_dynamicColumnsClass hbalanced hblanks hs
    obtain ⟨read, rfl, hpadding, q, hq⟩ :=
      Scan.namedArguments_of_spread h.nodup hblanks hs hunread
    have hsame : ∀ part ∈ read, CqlType.ofChars .hexDump sink part.2 =
        CqlType.ofChars .hexDump sink part.1.2.render := fun part hpart =>
      ofChars_of_isPadding (h.distinctFields _ (List.mem_map_of_mem hpart)) (hpadding part hpart)
        sink
    have hvalues : Bindings.values (read.map fun part => (part.1.1, part.2)) =
        read.map fun part => part.2 := by
      simp [Bindings.values]
    have hnames : Bindings.names (read.map fun part => (part.1.1, part.2)) =
        (read.map Prod.fst).map Prod.fst := by
      simp [Bindings.names]
    rw [readDynamicColumns, hq]
    simp only
    rw [hvalues, hnames, Reading.each_map_congr hsame, List.map_map, List.map_map]
    rfl
  rw [hread padded hpadded, hread _ (text_blockPhrase columns ▸ Phrase.isPadding_text _)]

/-- An expression that starts like a block is an unknown class, which has no blanks. -/
theorem eq_render_of_isDynamicColumns {e : Expr} {padded : List Char}
    (h : e.phrase.IsPadding padded) (hblock : isDynamicColumns padded = true) :
    padded = e.render := by
  have hstructured : ∀ name ∈ structuredClasses, isDynamicColumns name = false := by
    decide +kernel
  refine (Expr.eq_or_exists_of_isPadding h).resolve_right ?_
  rintro ⟨name, hname, rest, rfl⟩
  rw [isDynamicColumns_append (by simp [isIdentifierChar]), hstructured name hname] at hblock
  exact absurd hblock Bool.false_ne_true

/-- Units that are read alike may stand for each other, and so may their blocks. -/
theorem ofUnits_congr {sink : Sink} {read : List (Phrase × List Char)}
    (hpadding : ∀ part ∈ read, part.1.IsPadding part.2)
    (hread : ∀ part ∈ read, CqlType.ofChars .hexDump sink part.2 =
      CqlType.ofChars .hexDump sink part.1.text) {block? block?' : Option (List Char)}
    (hblock : block?.elim (pure []) (readDynamicColumns .hexDump sink) =
      block?'.elim (pure []) (readDynamicColumns .hexDump sink)) :
    ofUnits .hexDump sink (read.map fun part => part.2) block? =
      ofUnits .hexDump sink (read.map fun part => part.1.text) block?' := by
  have hofUnits (units : List (List Char)) (block? : Option (List Char)) :
      ofUnits .hexDump sink units block? = (do
        let dynamicColumns ← block?.elim (pure []) (readDynamicColumns .hexDump sink)
        let types ← Reading.each units fun unit _ => CqlType.ofChars .hexDump sink unit
        checked (ofLists true types (units.map isReversed) dynamicColumns)) := by
    cases block? <;> rfl
  have hreversed : (read.map fun part => part.2).map isReversed =
      (read.map fun part => part.1.text).map isReversed := by
    rw [List.map_map, List.map_map]
    exact List.map_congr_left fun part hpart =>
      isPrefixOf_of_isPadding isName_reversedClass (hpadding part hpart)
  rw [hofUnits, hofUnits, hblock, hreversed, Reading.each_map_congr hread]

/-- Reads a composite from its units, the last of which may be a block. -/
def ofAllUnits (sink : Sink) (units : List (List Char)) : Reading Comparator := do
  let last ← Reading.ofExcept (lastUnit units)
  if isDynamicColumns last then ofUnits .hexDump sink units.dropLast (some last)
  else ofUnits .hexDump sink units none

theorem ofAllUnits_concat (sink : Sink) (units : List (List Char)) (last : List Char) :
    ofAllUnits sink (units ++ [last]) =
      if isDynamicColumns last then ofUnits .hexDump sink units (some last)
      else ofUnits .hexDump sink (units ++ [last]) none := by
  rw [ofAllUnits, lastUnit, List.getLast?_concat, List.dropLast_concat]
  rfl

/-- A component with blanks is read like the one without. -/
theorem ofChars_component_of_isPadding {es : List Expr} (hes : ∀ e ∈ es, e.DistinctFields)
    {part : Phrase × List Char} (hmem : part.1 ∈ es.map Expr.phrase)
    (hpart : part.1.IsPadding part.2) (sink : Sink) :
    CqlType.ofChars .hexDump sink part.2 = CqlType.ofChars .hexDump sink part.1.text := by
  obtain ⟨e, he, heq⟩ := List.mem_map.1 hmem
  rw [← heq] at hpart ⊢
  rw [e.text_phrase]
  exact CqlType.ofChars_of_isPadding (hes e he) hpart sink

theorem isDynamicColumns_of_isPadding {phrase : Phrase} {u : List Char} (hu : phrase.IsPadding u) :
    isDynamicColumns u = isDynamicColumns phrase.text :=
  isPrefixOf_of_isPadding isName_dynamicColumnsClass hu

/-- The components of a composite without a block are read alike with blanks and without. -/
theorem ofAllUnits_components_of_isPadding {es : List Expr} (hne : es ≠ [])
    (hes : ∀ e ∈ es, e.DistinctFields) {read : List (Phrase × List Char)}
    (hread : read.map Prod.fst = es.map Expr.phrase)
    (hpadding : ∀ part ∈ read, part.1.IsPadding part.2) (sink : Sink) :
    ofAllUnits sink (read.map fun part => part.2) =
      ofAllUnits sink (read.map fun part => part.1.text) := by
  have hmem : ∀ part ∈ read, part.1 ∈ es.map Expr.phrase := fun part hpart =>
    hread ▸ List.mem_map_of_mem hpart
  have hsame : ∀ part ∈ read, CqlType.ofChars .hexDump sink part.2 =
      CqlType.ofChars .hexDump sink part.1.text := fun part hpart =>
    ofChars_component_of_isPadding hes (hmem part hpart) (hpadding part hpart) sink
  obtain rfl | ⟨init, last, rfl⟩ := read.eq_nil_or_concat'
  · exact absurd (List.map_eq_nil_iff.1 hread.symm) hne
  have hlast : last ∈ init ++ [last] := List.mem_append_right _ (.head _)
  have hinit : ∀ part ∈ init, part ∈ init ++ [last] := fun part => List.mem_append_left _
  simp only [List.map_append, List.map_singleton, ofAllUnits_concat,
    ← isDynamicColumns_of_isPadding (hpadding _ hlast)]
  split
  · next hdyn =>
    -- A component that is taken for a block has no blanks.
    have hblock : last.2 = last.1.text := by
      obtain ⟨e, -, heq⟩ := List.mem_map.1 (hmem last hlast)
      have hpart := hpadding last hlast
      rw [← heq] at hpart ⊢
      rw [e.text_phrase]
      exact eq_render_of_isDynamicColumns hpart hdyn
    exact ofUnits_congr (fun part hpart => hpadding part (hinit part hpart))
      (fun part hpart => hsame part (hinit part hpart)) (by rw [hblock])
  · have hall : ofUnits .hexDump sink _ none = ofUnits .hexDump sink _ none :=
      ofUnits_congr hpadding hsame rfl
    simpa only [List.map_append, List.map_singleton] using hall

/-- The units of a composite with blanks are read like those without. -/
theorem ofAllUnits_of_isPadding {es : List Expr} (hne : es ≠ [])
    (hes : ∀ e ∈ es, e.DistinctFields) {block : Option (List (String × Expr))}
    (hblock : ∀ columns ∈ block, WritableBlock columns) {read : List (Phrase × List Char)}
    (hread : read.map Prod.fst = unitPhrases es block)
    (hpadding : ∀ part ∈ read, part.1.IsPadding part.2) (sink : Sink) :
    ofAllUnits sink (read.map fun part => part.2) =
      ofAllUnits sink (read.map fun part => part.1.text) := by
  cases block with
  | none =>
    rw [unitPhrases, Option.map_none, Option.toList_none, List.append_nil] at hread
    exact ofAllUnits_components_of_isPadding hne hes hread hpadding sink
  | some columns =>
    -- The block is the last unit, and is read as a block with its blanks and without.
    obtain ⟨init, tail, rfl, hinit, htail⟩ := List.map_eq_append_iff.1 hread
    obtain ⟨⟨phrase, u⟩, rfl, rfl⟩ := List.map_eq_singleton_iff.1 htail
    have hu : (blockPhrase columns).IsPadding u :=
      hpadding _ (List.mem_append_right _ (.head _))
    have hdyn : isDynamicColumns (blockPhrase columns).text = true := by
      rw [text_blockPhrase]
      exact isDynamicColumns_blockText columns
    simp only [List.map_append, List.map_singleton, ofAllUnits_concat]
    rw [isDynamicColumns_of_isPadding hu, if_pos hdyn, if_pos hdyn]
    refine ofUnits_congr (fun part hpart => hpadding part (List.mem_append_left _ hpart))
      (fun part hpart => ofChars_component_of_isPadding hes (hinit ▸ List.mem_map_of_mem hpart)
        (hpadding part (List.mem_append_left _ hpart)) sink) ?_
    rw [Option.elim_some, Option.elim_some, text_blockPhrase]
    exact readDynamicColumns_of_isPadding (hblock columns rfl) hu sink

/-- Blanks between the pieces of a composite do not change what is read. -/
theorem ofChars_of_isPadding {es : List Expr} (hne : es ≠ []) (hes : ∀ e ∈ es, e.DistinctFields)
    {block : Option (List (String × Expr))} (hblock : ∀ columns ∈ block, WritableBlock columns)
    {padded : List Char} (hpadded : (compositePhrase es block).IsPadding padded) (sink : Sink) :
    ofChars .hexDump sink padded =
      ofChars .hexDump sink (compositeText (es.map Expr.render) block) := by
  have hread : ∀ text, (compositePhrase es block).IsPadding text →
      ofChars .hexDump sink text = ofAllUnits sink ((unitPhrases es block).map Phrase.text) := by
    rintro _ ⟨blanks, s, hblanks, hs, rfl⟩
    have hbalanced : IsBalanced ([[',']].intercalate ((unitPhrases es block).map Phrase.pieces)) :=
      .intercalate (List.forall_mem_map.2 fun phrase _ => phrase.isBalanced_pieces)
    have hlist : Spread ([[',']].intercalate
        ((unitPhrases es block).map fun phrase => (id phrase).pieces)) s := hs
    obtain ⟨hskip, hname, hafter⟩ := Place.start_unit isName_compositeClass
      (.inr (isGroup_of_spread hbalanced hblanks hs))
    have hcomposite : ClassName.isComposite compositeClass = true := by decide +kernel
    obtain ⟨read, hread, hpadding, q, hq⟩ := Scan.arguments_of_spread hblanks hlist hafter
    have hnonempty : (read.map Prod.snd).isEmpty = false := by
      rw [List.isEmpty_eq_false_iff, Ne, List.map_eq_nil_iff]
      rintro rfl
      exact hne (List.map_eq_nil_iff.1 (List.append_eq_nil_iff.1 hread.symm).1)
    rw [← hread, List.map_map]
    refine Eq.trans ?_ (ofAllUnits_of_isPadding hne hes hblock hread hpadding sink)
    simp only [ofChars, hskip, hname, hcomposite, if_true, hq, hnonempty, Bool.false_eq_true,
      if_false]
    rfl
  rw [hread padded hpadded, hread _ (text_compositePhrase es block ▸ Phrase.isPadding_text _)]

/-- Blanks between the pieces of a class name, inside its outermost parentheses, do not count. The
text of an expression with blanks is read like the text without, as the type of the expression, and
the text of a composite with blanks like the text without, as its components and its dynamic
columns. -/
theorem ofClassName_of_isPadding (sink : Sink) :
    (∀ (e : Expr) (padded : List Char), e.DistinctFields → e.phrase.IsPadding padded →
      CqlType.ofClassName .hexDump sink (String.ofList padded) =
        CqlType.ofClassName .hexDump sink (String.ofList e.render) ∧
      (sink.Accepts →
        (CqlType.ofClassName .hexDump sink (String.ofList padded)).outcome = .ok e.type)) ∧
    ∀ (es : List Expr) (block : Option (List (String × Expr))) (padded : List Char), es ≠ [] →
      (∀ e ∈ es, e.DistinctFields) → (∀ columns ∈ block, WritableBlock columns) →
      (compositePhrase es block).IsPadding padded →
      ofClassName .hexDump sink (String.ofList padded) =
        ofClassName .hexDump sink (String.ofList (compositeText (es.map Expr.render) block)) ∧
      (sink.Accepts →
        (block = none → ∀ e ∈ es.getLast?, ¬ dynamicColumnsClass <+: e.render) →
        (ofClassName .hexDump sink (String.ofList padded)).outcome =
          .ok ⟨true, es.map fun e => ⟨e.type, e.isReversed⟩, blockTypes block⟩) := by
  constructor
  · intro e padded he hpadded
    have hsame := CqlType.ofChars_of_isPadding he hpadded sink
    simp only [CqlType.ofClassName, String.toList_ofList, hsame, true_and]
    exact fun hsink => outcome_ofChars_render he hsink
  · intro es block padded hne hes hblock hpadded
    have hsame := ofChars_of_isPadding hne hes hblock hpadded sink
    simp only [ofClassName, String.toList_ofList, hsame, true_and]
    intro hsink hlast
    have hread := outcome_ofChars_compositeText (fun e _ => e.isUnit_render)
      (fun e he => outcome_ofChars_render (hes e he) hsink) hblock hne
      (fun hnone e he => isDynamicColumns_render (hlast hnone e he)) hsink
    simpa only [Expr.isReversed_render] using hread

/-- A blank behind each piece inside the outermost parentheses. -/
theorem ofClassName_of_isPadding_everywhere :
    (CqlType.ofClassName .hexDump .collect (String.ofList (frozenClass ++ "( ".toList ++
      CollectionKind.list.className ++ " ( ".toList ++ userTypeClass ++ " ( ks , ".toList ++
      (Text.HexDump.encode "p").toList ++ " , ".toList ++ (Text.HexDump.encode "x").toList ++
      " : ".toList ++ nativeClass .int ++ " ) ) )".toList))).outcome =
        .ok (.list true (.udt true "ks" "p" [("x", .native .int)])) ∧
    (ofClassName .hexDump .log (String.ofList (compositeClass ++ "(\n".toList ++
      nativeClass .int ++ "\n,\n".toList ++ reversedClass ++ "\n(\n".toList ++
      nativeClass .text ++ "\n)\n,\n".toList ++ dynamicColumnsClass ++ "\n(\n".toList ++
      (Text.HexDump.encode "tags").toList ++ "\n:\n".toList ++ CollectionKind.set.className ++
      "\n(\n".toList ++ nativeClass .text ++ "\n)\n)\n)".toList))).outcome =
        .ok ⟨true, [⟨.native .int, false⟩, ⟨.native .text, true⟩],
          [("tags", .set false (.native .text))]⟩ := by
  let e : Expr := .mk .frozen (.list (.mk .none (.userType ⟨"ks".toList, by decide⟩ "p"
    [("x", .mk .none (.native .int))])))
  let es : List Expr := [.mk .none (.native .int), .mk .reversed (.native .text)]
  let columns : List (String × Expr) := [("tags", .mk .none (.set (.mk .none (.native .text))))]
  have he : e.DistinctFields := by
    simp [e]
  have hes : ∀ e ∈ es, e.DistinctFields := by
    simp [es]
  have hcolumns : WritableBlock columns :=
    ⟨by simp [columns], by simp [columns]⟩
  refine ⟨?_, ?_⟩
  · refine ((ofClassName_of_isPadding .collect).1 e _ he ⟨" ".toList, _, by decide,
      .of_isBlanks (show IsBlanks " ".toList by decide) _, ?_⟩).2 Sink.accepts_collect
    decide +kernel
  · refine ((ofClassName_of_isPadding .log).2 es (some columns) _ (by simp [es]) hes
      (by rintro _ ⟨⟩; exact hcolumns) ⟨"\n".toList, _, by decide,
        .of_isBlanks (show IsBlanks "\n".toList by decide) _, ?_⟩).2 Sink.accepts_log (by simp)
    decide +kernel

end SchemaTypes.Comparator
