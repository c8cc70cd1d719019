import SchemaTypes.Proofs.CqlType.Wrappers

/-!
# The kind of a type

A class name announces by its name what kind of type it spells, and the type that is read is of this
kind. Native types and unknown classes have no arguments: they are told by their names alone, so
that nothing behind the name can keep them from being read. A native type is told by the whole
name, and an unknown class is kept as it is written.

## Main definitions

* `Layer.head`, `CqlType.head`: the kind of a level and of a type.

## Main results

* `head_of_ofUnwrapped`: a type is of the kind that its name announces.
* `outcome_ofUnwrapped_of_native`, `outcome_ofUnwrapped_of_unknown`: the names that are enough.
* `ofClassName_native_or_custom_iff`: which class names are native types or unknown classes.
-/

namespace SchemaTypes.CqlType

open ClassName

namespace Layer

variable {α β : Type}

/-- The kind of a level. -/
def head : Layer α → Head
  | .native t => .native t
  | .list _ _ => .collection .list
  | .set _ _ => .collection .set
  | .map _ _ _ => .collection .map
  | .udt _ _ _ => .userType
  | .tuple _ => .tuple
  | .custom _ => .unknown

/-- Reading the parts of a level does not change its kind. -/
theorem Rel.head_eq {P : α → β → Prop} {layer : Layer α} {typed : Layer β}
    (h : Rel P layer typed) : typed.head = layer.head := by
  cases h <;> rfl

/-- A level is of the kind that was announced. -/
theorem head_of_ofArguments {decoder : Decoder} {frozen : Bool} {className : List Char}
    {p : Place} {head : Head} {layer : Layer (List Char)}
    (h : ofArguments decoder frozen className p head = .ok layer) : layer.head = head := by
  cases head with
  | collection kind =>
    simp only [ofArguments] at h
    split at h
    · cases h
    · -- As many arguments as the collection takes are made into this collection.
      rw [ofElements.eq_def] at h
      split at h <;> cases h <;> rfl
  | userType =>
    simp only [ofArguments] at h
    split at h <;> cases h
    rfl
  | tuple =>
    simp only [ofArguments] at h
    split at h <;> cases h
    rfl
  | native t =>
    cases h
    rfl
  | unknown =>
    cases h
    rfl

end Layer

open Layer

/-- The kind of a type. -/
def head : CqlType → Head
  | .native t => .native t
  | .list _ _ => .collection .list
  | .set _ _ => .collection .set
  | .map _ _ _ => .collection .map
  | .udt _ _ _ _ => .userType
  | .tuple _ => .tuple
  | .custom _ => .unknown

theorem head_ofLayer (layer : Layer CqlType) : (ofLayer layer).head = layer.head := by
  cases layer <;> rfl

variable {decoder : Decoder} {sink : Sink} {className inner : List Char} {wrapper : Wrapper}

/-- A type is of the kind that its name announces. -/
theorem head_of_ofUnwrapped {t : CqlType}
    (h : (ofUnwrapped decoder sink wrapper inner).outcome = .ok t) :
    t.head = Head.ofName (Place.start inner).skipBlanks.name := by
  obtain ⟨layer, types, hlayer, htypes, rfl⟩ := exists_of_ofUnwrapped h
  rw [head_ofLayer, (rel_of_traverse htypes).head_eq, head_of_ofArguments hlayer]

/-- A native type is read by its name, whatever follows. -/
theorem outcome_ofUnwrapped_of_native (hsink : sink.Accepts) {n : NativeType}
    (hhead : Head.ofName (Place.start inner).skipBlanks.name = .native n) :
    (ofUnwrapped decoder sink wrapper inner).outcome = .ok (.native n) := by
  have hlayer : ofArguments decoder (wrapper = .frozen) inner
      (Place.start inner).skipBlanks.afterName
      (Head.ofName (Place.start inner).skipBlanks.name) = .ok (.native n) := by
    rw [hhead]
    rfl
  exact (outcome_ofUnwrapped_of_ofArguments hsink hlayer).trans rfl

/-- An unknown class is kept as it is written, whatever follows its name. -/
theorem outcome_ofUnwrapped_of_unknown (hsink : sink.Accepts)
    (hhead : Head.ofName (Place.start inner).skipBlanks.name = .unknown) :
    (ofUnwrapped decoder sink wrapper inner).outcome = .ok (.custom (String.ofList inner)) := by
  have hlayer : ofArguments decoder (wrapper = .frozen) inner
      (Place.start inner).skipBlanks.afterName
      (Head.ofName (Place.start inner).skipBlanks.name) = .ok (.custom (String.ofList inner)) := by
    rw [hhead]
    rfl
  exact (outcome_ofUnwrapped_of_ofArguments hsink hlayer).trans rfl

/-- Without a wrapper the whole class name is read, and inside a wrapper its only argument. -/
theorem exists_unwrap (hbare : IsBare className → inner = className)
    (hwrapped : ¬ IsBare className → soleArgument className = .ok inner) :
    ∃ wrapper, unwrap className = .ok (wrapper, inner) := by
  by_cases h : IsBare className
  · obtain rfl := hbare h
    exact ⟨.none, unwrap_of_isBare h⟩
  · refine ⟨if isReversed className then .reversed else .frozen, ?_⟩
    rw [unwrap_of_not_isBare h, hwrapped h]
    rfl

/-- Native types are told by their whole names, and what announces nothing is kept as it is
written. The name is the run of identifier characters behind the blanks at the front of the class
name, or of the only argument of its wrapper; whatever follows it, it is enough for a native type
and for an unknown class to be read. -/
theorem ofClassName_native_or_custom_iff (decoder : Decoder) {sink : Sink} (hsink : sink.Accepts)
    (className : String) {inner : List Char}
    (hbare : IsBare className.toList → inner = className.toList)
    (hwrapped : ¬ IsBare className.toList → soleArgument className.toList = .ok inner) :
    let name := (inner.dropWhile isBlank).takeWhile isIdentifierChar
    let outcome := (ofClassName decoder sink className).outcome
    (∀ t, outcome = .ok (.native t) ↔ name = nativeClass t) ∧
    ((∃ text, outcome = .ok (.custom text)) ↔
      (∀ t, name ≠ nativeClass t) ∧ (∀ kind : CollectionKind, ¬ kind.className <+: name) ∧
        ¬ userTypeClass <+: name ∧ ¬ tupleClass <+: name) ∧
    ∀ text, outcome = .ok (.custom text) → text = String.ofList inner := by
  intro name outcome
  have hname : (Place.start inner).skipBlanks.name = name := by
    rw [Place.name, Place.unread_skipBlanks, Place.unread_start]
  obtain ⟨wrapper, hunwrap⟩ := exists_unwrap hbare hwrapped
  have houtcome : outcome = (ofUnwrapped decoder sink wrapper inner).outcome :=
    congrArg Reading.outcome (ofChars_of_unwrap hunwrap)
  -- The kind of the type is that of the name, which tells these two kinds entirely.
  have hhead {t : CqlType} (h : outcome = .ok t) : Head.ofName name = t.head := by
    rw [← hname]
    exact (head_of_ofUnwrapped (houtcome ▸ h)).symm
  refine ⟨fun t => ?_, ?_, fun text h => eq_ofList_of_ofUnwrapped (houtcome ▸ h)⟩
  · rw [← Head.ofName_eq_native_iff]
    refine ⟨fun h => hhead h, fun h => ?_⟩
    rw [houtcome]
    exact outcome_ofUnwrapped_of_native hsink (hname ▸ h)
  · rw [← Head.ofName_eq_unknown_iff]
    constructor
    · rintro ⟨text, h⟩
      exact hhead h
    · intro h
      rw [houtcome]
      exact ⟨String.ofList inner, outcome_ofUnwrapped_of_unknown hsink (hname ▸ h)⟩

/-- A frozen integer with a group behind its name is an integer. A name that goes on where that of
an integer ends is kept, with the blank in front of it and the parentheses behind it. -/
theorem ofClassName_native_or_custom_iff_followed :
    let wrapped := "org.apache.cassandra.db.marshal.FrozenType(" ++
      "org.apache.cassandra.db.marshal.Int32Type (x)):"
    let longer := " org.apache.cassandra.db.marshal.Int32TypeX)("
    (ofClassName .hexDump .log wrapped).outcome = .ok (.native .int) ∧
      (ofClassName .hexDump .log longer).outcome = .ok (.custom longer) := by
  intro wrapped longer
  have hbare : ¬ IsBare wrapped.toList ∧ IsBare longer.toList := by
    unfold IsBare
    decide +kernel
  have hsole : soleArgument wrapped.toList =
      .ok "org.apache.cassandra.db.marshal.Int32Type(x)".toList := by
    decide +kernel
  have hnative := (ofClassName_native_or_custom_iff .hexDump Sink.accepts_log wrapped
    (fun h => absurd h hbare.1) fun _ => hsole).1
  obtain ⟨-, hcustom, htext⟩ := ofClassName_native_or_custom_iff .hexDump Sink.accepts_log longer
    (fun _ => rfl) fun h => absurd hbare.2 h
  refine ⟨(hnative .int).2 (by decide +kernel), ?_⟩
  have hlonger : Head.ofName ((longer.toList.dropWhile isBlank).takeWhile isIdentifierChar) =
      .unknown := by
    decide +kernel
  obtain ⟨text, hread⟩ := hcustom.2 (Head.ofName_eq_unknown_iff.1 hlonger)
  rwa [htext text hread, String.ofList_toList] at hread

end SchemaTypes.CqlType
