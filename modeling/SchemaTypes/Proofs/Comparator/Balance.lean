import SchemaTypes.Proofs.CqlType.Balance
import SchemaTypes.Proofs.CqlType.Faults
import SchemaTypes.Proofs.Comparator.Components

/-!
# Class names that are not balanced

A class that takes arguments is read up to the parenthesis that closes them, so that a class name
in which the parentheses do not balance is malformed, unless they balance up to there. A class that
takes no arguments is told by its name, whatever parentheses stand behind it.

## Main definitions

* `ReadToGroup`: results that are those of the front part that ends with the first group.

## Main results

* `readToGroup_of_readByGroup`: what is read from one group is read to its end.
* `outcome_ofChars_single`: a class that takes no arguments is the only component.
* `ofClassName_of_not_balanced`: types and comparators of class names that are not balanced.
-/

namespace SchemaTypes.Comparator

open ClassName CqlType

variable {decoder : Decoder} {sink : Sink}

/-- A class name has the results of the front part that ends with the group of its first
parenthesis, and is malformed if there are none. -/
structure ReadToGroup {β : Type} (outcome : String → Except Fault β) (className : String) :
    Prop where
  /-- A result is one of the front part. -/
  eq_ok_iff : ∀ b, outcome className = .ok b ↔ ∃ front rest, className = front ++ rest ∧
    EndsWithGroup front.toList ∧ outcome front = .ok b
  /-- Without a result there is a fault in the text. -/
  ok_or_malformed : (∃ b, outcome className = .ok b) ∨
    ∃ fault causes, outcome className = .error (.malformed fault causes)

/-- If all results are read from one group, no text behind this group is read. -/
theorem readToGroup_of_readByGroup {β : Type} (outcome : List Char → Except Fault β)
    (P : List Char → Prop)
    (hlike : ∀ {className other}, StartsLike className other → (P className ↔ P other))
    (hread : ∀ {className b}, P className → outcome className = .ok b →
      ReadByGroup outcome className b)
    (hfault : ∀ {className fault}, outcome className = .error fault → fault.Structural)
    {className : String} (hP : P className.toList) (hbalanced : ¬ Balanced className.toList) :
    ReadToGroup (fun text => outcome text.toList) className where
  eq_ok_iff b := by
    constructor
    · intro h
      obtain ⟨front, rest, htext, hfront, houtcome⟩ := (hread hP h).exists_front hbalanced
      refine ⟨String.ofList front, String.ofList rest, ?_, ?_, ?_⟩
      · rw [← String.ofList_append, ← htext, String.ofList_toList]
      · rwa [String.toList_ofList]
      · rwa [String.toList_ofList]
    · rintro ⟨front, rest, rfl, hfront, houtcome⟩
      rw [String.toList_append] at hP
      -- The front part starts like the whole, so that it is read from its group too.
      have hfrontP := (hlike (startsLike_append hfront.mem rest.toList).1).2 hP
      rw [String.toList_append]
      exact (hread hfrontP houtcome).append hfront.mem rest.toList
  ok_or_malformed := by
    cases houtcome : outcome className.toList with
    | ok b => exact .inl ⟨b, rfl⟩
    | error fault =>
      obtain ⟨f, causes, rfl, -⟩ := hfault houtcome
      exact .inr ⟨f, causes, rfl⟩

theorem isComposite_name_iff (className : List Char) :
    ClassName.isComposite (Place.start className).skipBlanks.name = true ↔
      compositeClass <+: leadingName className := by
  rw [ClassName.isComposite, List.isPrefixOf_iff_prefix, Place.name_start]

/-- A comparator is read from one group if it is a composite or its type takes arguments. -/
theorem readByGroup_of_isComposite_or {className : List Char} (hsink : sink.Accepts)
    (h : compositeClass <+: leadingName className ∨ TakesArguments className)
    {comparator : Comparator}
    (hread : (ofChars decoder sink className).outcome = .ok comparator) :
    ReadByGroup (fun className => (ofChars decoder sink className).outcome) className
      comparator := by
  cases hcomposite : ClassName.isComposite (Place.start className).skipBlanks.name with
  | true =>
    obtain ⟨units, p, harguments, hne, hunits⟩ := exists_of_outcome_ofChars hcomposite hread
    refine ⟨_, Scan.arguments, units, Scan.readsGroup_arguments, ⟨p, harguments⟩, ?_⟩
    rintro other hlike ⟨q, hother⟩
    show (ofChars decoder sink other).outcome = .ok comparator
    rw [ofChars_of_arguments (hlike.name_eq ▸ hcomposite) hother, if_neg hne]
    exact hunits
  | false =>
    have htakes := h.resolve_left (by simp [← isComposite_name_iff, hcomposite])
    obtain ⟨t, ht, rfl⟩ := (outcome_ofChars_eq_ok_iff hcomposite).1 hread
    obtain ⟨α, scan, a, hscan, hgroup, hsame⟩ := readByGroup_of_takesArguments hsink htakes ht
    refine ⟨α, scan, a, hscan, hgroup, fun other hlike hother => ?_⟩
    rw [outcome_ofChars_eq_ok_iff (hlike.name_eq ▸ hcomposite), ← hlike.name_eq]
    exact ⟨t, hsame other hlike hother, rfl⟩

/-- A class name that starts with no word of a class with arguments is read as a type, which is the
only component and not reversed. -/
theorem outcome_ofChars_single {className : List Char} {t : CqlType}
    (hname : ∀ word ∈ compositeClass :: structuredClasses, ¬ word <+: leadingName className)
    (ht : (CqlType.ofChars decoder sink className).outcome = .ok t) :
    (ofChars decoder sink className).outcome = .ok ⟨false, [⟨t, false⟩], []⟩ := by
  have hcomposite : ClassName.isComposite (Place.start className).skipBlanks.name = false := by
    rw [Bool.eq_false_iff, Ne, isComposite_name_iff]
    exact hname _ (.head _)
  have hreversed : isReversed (Place.start className).skipBlanks.name = false := by
    rw [Place.name_start, Bool.eq_false_iff, Ne, isReversed, List.isPrefixOf_iff_prefix]
    exact hname _ (.tail _ (.head _))
  rw [outcome_ofChars_eq_ok_iff hcomposite, hreversed]
  exact ⟨t, ht, rfl⟩

/-- No class name that is not balanced has a result of its own if its class takes arguments. What
is not balanced then stands behind the group of the first parenthesis, and is not read, or the
class name is malformed. A class whose name starts with no word of a class with arguments is native
or unknown, and is told by this name whatever stands behind it. -/
theorem ofClassName_of_not_balanced {sink : Sink} (hsink : sink.Accepts) {className : String}
    (h : ¬ Balanced className.toList) :
    (TakesArguments className.toList →
      ReadToGroup (fun text => (CqlType.ofClassName .hexDump sink text).outcome) className) ∧
    (compositeClass <+: leadingName className.toList ∨ TakesArguments className.toList →
      ReadToGroup (fun text => (ofClassName .hexDump sink text).outcome) className) ∧
    ((∀ word ∈ structuredClasses, ¬ word <+: leadingName className.toList) →
      ∃ t, ToldByName className.toList t ∧
        (CqlType.ofClassName .hexDump sink className).outcome = .ok t ∧
        (¬ compositeClass <+: leadingName className.toList →
          (ofClassName .hexDump sink className).outcome = .ok ⟨false, [⟨t, false⟩], []⟩)) := by
  refine ⟨fun htakes => ?_, fun htakes => ?_, fun hname => ?_⟩
  · exact readToGroup_of_readByGroup (fun text => (CqlType.ofChars .hexDump sink text).outcome)
      TakesArguments (fun hlike => hlike.takesArguments_iff)
      (fun htakes hread => readByGroup_of_takesArguments hsink htakes hread)
      (CqlType.structural_of_ofChars blamesText_hexDump hsink) htakes h
  · exact readToGroup_of_readByGroup (fun text => (ofChars .hexDump sink text).outcome)
      (fun text => compositeClass <+: leadingName text ∨ TakesArguments text)
      (fun hlike => by rw [hlike.leadingName_eq, hlike.takesArguments_iff])
      (fun htakes hread => readByGroup_of_isComposite_or hsink htakes hread)
      (structural_of_ofChars blamesText_hexDump hsink) htakes h
  · obtain ⟨t, htold, ht⟩ := exists_toldByName hsink hname
    refine ⟨t, htold, ht, fun hcomposite => ?_⟩
    exact outcome_ofChars_single (List.forall_mem_cons.2 ⟨hcomposite, hname⟩) ht

/-- A list of integers is read. -/
theorem outcome_ofChars_list (hsink : sink.Accepts) :
    (CqlType.ofChars .hexDump sink
      (CollectionKind.list.className ++ listText [nativeClass .int])).outcome =
        .ok (.list false (.native .int)) :=
  outcome_ofChars_render (e := .mk .none (.list (.mk .none (.native .int)))) (by simp) hsink

/-- A list is read if too much is closed behind its arguments, and malformed if they are not
closed. An integer is told by its name, and so is a class that is not known. -/
theorem ofClassName_of_not_balanced_list :
    let read (text : List Char) := (CqlType.ofClassName .hexDump .log (String.ofList text)).outcome
    let list := CollectionKind.list.className ++ listText [nativeClass .int]
    let unclosed := CollectionKind.list.className ++ ['(']
    (¬ Balanced (list ++ [')']) ∧ read (list ++ [')']) = .ok (.list false (.native .int))) ∧
    (¬ Balanced unclosed ∧ ∃ fault causes, read unclosed = .error (.malformed fault causes)) ∧
    ∀ part ∈ [(" org.apache.cassandra.db.marshal.Int32Type)".toList, CqlType.native .int),
        ("com.example.PointType(".toList, .custom "com.example.PointType(")],
      ¬ Balanced part.1 ∧ read part.1 = .ok part.2 ∧
        (ofClassName .hexDump .log (String.ofList part.1)).outcome =
          .ok ⟨false, [⟨part.2, false⟩], []⟩ := by
  intro read list unclosed
  have hresult {text : List Char} (hcount : text.count ')' ≠ text.count '(') :=
    @ofClassName_of_not_balanced .log Sink.accepts_log (String.ofList text)
      (by rw [String.toList_ofList]; exact fun h => hcount h.count_eq)
  simp only [String.toList_ofList] at hresult
  have hsurplus : (list ++ [')']).count ')' ≠ (list ++ [')']).count '(' := by decide +kernel
  have hmissing : unclosed.count ')' ≠ unclosed.count '(' := by decide +kernel
  have hread := (hresult hsurplus).1 (.inr (by decide +kernel))
  have hfail := (hresult hmissing).1 (.inr (by decide +kernel))
  refine ⟨⟨fun h => hsurplus h.count_eq, (hread.eq_ok_iff _).2 ⟨String.ofList list,
    String.ofList [')'], String.ofList_append, ?_, ?_⟩⟩,
    ⟨fun h => hmissing h.count_eq, hfail.ok_or_malformed.resolve_left ?_⟩, ?_⟩
  · rw [String.toList_ofList]
    have hname : IsName CollectionKind.list.className := isName_className .list
    have hgroup := isGroup_listText_singleton (isUnit_of_isName (isName_nativeClass .int))
    exact ⟨_, _, rfl, fun c hc => ne_parenthesis (.inr (hname c hc)), hgroup⟩
  · show (CqlType.ofClassName .hexDump .log (String.ofList list)).outcome = _
    rw [CqlType.ofClassName, String.toList_ofList]
    exact outcome_ofChars_list Sink.accepts_log
  · -- No front part of a text without a closing parenthesis ends with a group.
    rintro ⟨t, ht⟩
    obtain ⟨front, rest, htext, hends, -⟩ := (hfail.eq_ok_iff t).1 ht
    obtain ⟨lead, _, hfront, -, inner, -, rfl⟩ := hends
    have hmem : ')' ∈ (front ++ rest).toList := by
      rw [String.toList_append, hfront]
      simp
    rw [← htext, String.toList_ofList] at hmem
    exact absurd hmem (by decide +kernel)
  · have htold {text : List Char} {t : CqlType} (hcount : text.count ')' ≠ text.count '(')
        (hname : ∀ word ∈ compositeClass :: structuredClasses, ¬ word <+: leadingName text)
        (ht : ToldByName text t) : ¬ Balanced text ∧ read text = .ok t ∧
          (ofClassName .hexDump .log (String.ofList text)).outcome =
            .ok ⟨false, [⟨t, false⟩], []⟩ := by
      obtain ⟨hcomposite, hwords⟩ := List.forall_mem_cons.1 hname
      obtain ⟨t', ht', hread, hcomparator⟩ := (hresult hcount).2.2 hwords
      rw [ht'.unique ht] at hread hcomparator
      exact ⟨fun h => hcount h.count_eq, hread, hcomparator hcomposite⟩
    simp only [List.forall_mem_cons, List.not_mem_nil, false_imp_iff, implies_true, and_true]
    refine ⟨htold (by decide +kernel) (by decide +kernel) ?_,
      htold (by decide +kernel) (by decide +kernel) ?_⟩
    · exact .inl ⟨.int, by decide +kernel, rfl⟩
    · exact .inr ⟨native?_eq_none_iff.1 (by decide +kernel), by rw [String.ofList_toList]⟩

/-- An unknown class, a native class and a list have types although the parentheses behind their
names do not balance. -/
theorem outcome_ofClassName_not_balanced :
    let list := CollectionKind.list.className ++ listText [nativeClass .int]
    ∀ part ∈ [("com.example.PointType(".toList, CqlType.custom "com.example.PointType("),
        (nativeClass .int ++ ['('], .native .int), (list ++ [')'], .list false (.native .int))],
      ¬ Balanced part.1 ∧
      (CqlType.ofClassName .hexDump .collect (String.ofList part.1)).outcome = .ok part.2 ∧
      (ofClassName .hexDump .collect (String.ofList part.1)).outcome =
        .ok ⟨false, [⟨part.2, false⟩], []⟩ := by
  intro list
  have hread {text : List Char} {t : CqlType} (hcount : text.count ')' ≠ text.count '(')
      (hname : ClassName.isComposite (Place.start text).skipBlanks.name = false ∧
        isReversed (Place.start text).skipBlanks.name = false)
      (ht : (CqlType.ofChars .hexDump .collect text).outcome = .ok t) :
      ¬ Balanced text ∧
      (CqlType.ofClassName .hexDump .collect (String.ofList text)).outcome = .ok t ∧
      (ofClassName .hexDump .collect (String.ofList text)).outcome =
        .ok ⟨false, [⟨t, false⟩], []⟩ := by
    rw [CqlType.ofClassName, ofClassName, String.toList_ofList,
      outcome_ofChars_eq_ok_iff hname.1, hname.2]
    exact ⟨fun h => hcount h.count_eq, ht, t, ht, rfl⟩
  simp only [List.forall_mem_cons, List.not_mem_nil, false_imp_iff, implies_true, and_true]
  refine ⟨hread (by decide +kernel) (by decide +kernel) ?_,
    hread (by decide +kernel) (by decide +kernel) ?_,
    hread (by decide +kernel) (by decide +kernel) ?_⟩
  · refine (congrArg Reading.outcome (ofChars_of_unknown ?_ (by decide +kernel))).trans ?_
    · exact ⟨by decide +kernel, by decide +kernel⟩
    · rw [String.ofList_toList]
  · exact outcome_ofChars_of_native Sink.accepts_collect ⟨by decide +kernel, by decide +kernel⟩
      (by decide +kernel)
  · have hgroup := readByGroup_of_takesArguments Sink.accepts_collect (.inr (by decide +kernel))
      (outcome_ofChars_list Sink.accepts_collect)
    exact hgroup.append (by decide +kernel) [')']

end SchemaTypes.Comparator
