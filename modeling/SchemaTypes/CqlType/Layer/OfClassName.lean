import SchemaTypes.ClassName.UserType
import SchemaTypes.CqlType.Layer.Basic

/-!
# The outermost level of a class name

A class name is read level by level. Its outermost level is a layer whose parts are class names
that are still unread. Each part is a shorter text than the whole, so that reading the parts in
turn comes to an end.

## Main definitions

* `Layer.unwrap`: the class name inside a wrapper.
* `Layer.ofClassName`: the outermost level of a class name.

## Main results

* `Layer.fromArguments_of_ofArguments`: what a layer is made from.
* `Layer.length_lt_of_mem_parts`: the parts of a layer are shorter than the class name.
-/

namespace SchemaTypes.CqlType.Layer

open ClassName

/-- The wrapper around a class name. -/
inductive Wrapper
  | none
  | frozen
  | reversed
  deriving DecidableEq, Repr

/-- The only argument of a class. -/
def soleArgument (className : List Char) : Except Fault (List Char) :=
  match Scan.expectArguments 1 .soleArgumentExpected
    (Place.start className).skipBlanks.afterName with
  | .error fault _ => .error fault
  | .ok units _ => firstUnit units

/-- The wrapper around a class name and the class name inside, known by how the text starts. A
wrapper inside another one is not looked for. -/
def unwrap (className : List Char) : Except Fault (Wrapper × List Char) :=
  if isReversed className then (soleArgument className).map (.reversed, ·)
  else if isFrozen className then (soleArgument className).map (.frozen, ·)
  else .ok (.none, className)

/-- The outermost level of a collection, from its arguments. -/
def ofElements (frozen : Bool) : CollectionKind → List (List Char) →
    Except Fault (Layer (List Char))
  | .list, [element] => .ok (.list frozen element)
  | .set, [element] => .ok (.set frozen element)
  | .map, [key, value] => .ok (.map frozen key value)
  | kind, units => .error (.unpacked kind.arity units.length)

/-- The outermost level of a class name that has no wrapper around it, from what its name
announces and the arguments that stand at a place. -/
def ofArguments (decoder : Decoder) (frozen : Bool) (className : List Char) (p : Place) :
    Head → Except Fault (Layer (List Char))
  | .collection kind =>
    match Scan.expectArguments kind.arity (.argumentCount kind) p with
    | .error fault _ => .error fault
    | .ok units _ => ofElements frozen kind units
  | .userType =>
    match Scan.userType decoder p with
    | .error fault _ => .error fault
    | .ok t _ => .ok (.udt (String.ofList t.keyspace) t.name t.fields)
  | .tuple =>
    match Scan.arguments p with
    | .error fault _ => .error fault
    | .ok units _ => .ok (.tuple units)
  | .native t => .ok (.native t)
  | .unknown => .ok (.custom (String.ofList className))

/-- Reports a freezing wrapper around something other than a collection. -/
def reportWrapper (sink : Sink) (wrapper : Wrapper) (head : Head) : Reading Unit :=
  if wrapper = .frozen ∧ head.isCollection = false then sink.report .frozenNonCollection
  else pure ()

/-- Reports a class that is not known. -/
def reportUnknown (head : Head) (className : List Char) : Reading Unit :=
  if head = .unknown then .note (.keptVerbatim (String.ofList className)) else pure ()

/-- The outermost level of a class name without its wrapper. The wrapper is reported before the
arguments are read, an unknown class after. -/
def ofUnwrapped (decoder : Decoder) (sink : Sink) (wrapper : Wrapper) (className : List Char) :
    Reading (Layer (List Char)) := do
  let start := (Place.start className).skipBlanks
  let head := Head.ofName start.name
  reportWrapper sink wrapper head
  let layer ←
    Reading.ofExcept (ofArguments decoder (wrapper = .frozen) className start.afterName head)
  reportUnknown head className
  return layer

/-- The outermost level of a class name. -/
def ofClassName (decoder : Decoder) (sink : Sink) (className : List Char) :
    Reading (Layer (List Char)) := do
  let (wrapper, inner) ← Reading.ofExcept (unwrap className)
  ofUnwrapped decoder sink wrapper inner

/-- The only argument of a class is one of its arguments. -/
theorem arguments_of_soleArgument {className inner : List Char}
    (h : soleArgument className = .ok inner) :
    ∃ units q, Scan.arguments (Place.start className).skipBlanks.afterName = .ok units q ∧
      inner ∈ units := by
  rw [soleArgument] at h
  split at h
  · simp at h
  · next units q hunits =>
    cases units with
    | nil => simp [firstUnit] at h
    | cons first units =>
      cases h
      exact ⟨_, q, (Scan.arguments_of_expectArguments hunits).1, .head _⟩

/-- The class name inside a wrapper is its only argument, and without a wrapper it is the whole. -/
theorem eq_or_soleArgument_of_unwrap {className inner : List Char} {wrapper : Wrapper}
    (h : unwrap className = .ok (wrapper, inner)) :
    inner = className ∨ soleArgument className = .ok inner := by
  have hsole : ∀ w : Wrapper, (soleArgument className).map (w, ·) = .ok (wrapper, inner) →
      soleArgument className = .ok inner := by
    intro w hw
    cases hargument : soleArgument className with
    | error fault => simp [hargument, Except.map] at hw
    | ok argument =>
      rw [hargument] at hw
      cases hw
      rfl
  rw [unwrap] at h
  split at h
  · exact .inr (hsole _ h)
  · split at h
    · exact .inr (hsole _ h)
    · cases h
      exact .inl rfl

/-- The class name inside a wrapper is no longer than the whole. -/
theorem length_le_of_unwrap {className inner : List Char} {wrapper : Wrapper}
    (h : unwrap className = .ok (wrapper, inner)) : inner.length ≤ className.length := by
  rcases eq_or_soleArgument_of_unwrap h with rfl | hsole
  · exact Nat.le_refl _
  · obtain ⟨units, q, hunits, hmem⟩ := arguments_of_soleArgument hsole
    have := Scan.length_lt_of_mem_arguments hunits hmem
    have := (Place.start className).skipBlanks.length_afterName_le
    have := (Place.start className).length_skipBlanks_le
    rw [Place.unread_start] at this
    omega

/-- What a layer is made from at a place: a collection or a tuple from a list of arguments, a
user-defined type from arguments of its own, and any other type from none. -/
inductive FromArguments (decoder : Decoder) (frozen : Bool) (className : List Char) (p : Place) :
    Layer (List Char) → Prop
  | list {element : List Char} {q : Place} : Scan.arguments p = .ok [element] q →
      FromArguments decoder frozen className p (.list frozen element)
  | set {element : List Char} {q : Place} : Scan.arguments p = .ok [element] q →
      FromArguments decoder frozen className p (.set frozen element)
  | map {key value : List Char} {q : Place} : Scan.arguments p = .ok [key, value] q →
      FromArguments decoder frozen className p (.map frozen key value)
  | udt {t : Scan.UserType} {q : Place} : Scan.userType decoder p = .ok t q →
      FromArguments decoder frozen className p (.udt (String.ofList t.keyspace) t.name t.fields)
  | tuple {units : List (List Char)} {q : Place} : Scan.arguments p = .ok units q →
      FromArguments decoder frozen className p (.tuple units)
  | native (t : NativeType) : FromArguments decoder frozen className p (.native t)
  | custom : FromArguments decoder frozen className p (.custom (String.ofList className))

/-- Whatever its name announces, a layer is made from the arguments behind it. -/
theorem fromArguments_of_ofArguments {decoder : Decoder} {frozen : Bool} {className : List Char}
    {p : Place} {head : Head} {layer : Layer (List Char)}
    (h : ofArguments decoder frozen className p head = .ok layer) :
    FromArguments decoder frozen className p layer := by
  cases head with
  | collection kind =>
    simp only [ofArguments] at h
    split at h
    · cases h
    · next units q hunits =>
      have harguments := (Scan.arguments_of_expectArguments hunits).1
      rw [ofElements.eq_def] at h
      split at h
      · cases h
        exact .list harguments
      · cases h
        exact .set harguments
      · cases h
        exact .map harguments
      · cases h
  | userType =>
    simp only [ofArguments] at h
    split at h
    · cases h
    · next t q ht =>
      cases h
      exact .udt ht
  | tuple =>
    simp only [ofArguments] at h
    split at h
    · cases h
    · next units q harguments =>
      cases h
      exact .tuple harguments
  | native t =>
    cases h
    exact .native t
  | unknown =>
    cases h
    exact .custom

/-- The parts of a layer are the arguments of its class or the types of its fields, or there are
none. -/
theorem parts_of_ofArguments {decoder : Decoder} {frozen : Bool} {className : List Char}
    {p : Place} {head : Head} {layer : Layer (List Char)}
    (h : ofArguments decoder frozen className p head = .ok layer) :
    layer.parts = [] ∨ (∃ q, Scan.arguments p = .ok layer.parts q) ∨
      ∃ t q, Scan.userType decoder p = .ok t q ∧ layer.parts = t.fields.values := by
  cases fromArguments_of_ofArguments h with
  | list harguments | set harguments | map harguments | tuple harguments =>
    exact .inr (.inl ⟨_, harguments⟩)
  | udt ht => exact .inr (.inr ⟨_, _, ht, rfl⟩)
  | native t => exact .inl rfl
  | custom => exact .inl rfl

/-- The parts of a layer are shorter than the text of its arguments. -/
theorem length_lt_of_mem_ofArguments {decoder : Decoder} {frozen : Bool}
    {className : List Char} {p : Place} {head : Head} {layer : Layer (List Char)}
    (h : ofArguments decoder frozen className p head = .ok layer) {part : List Char}
    (hpart : part ∈ layer.parts) : part.length < p.unread.length := by
  rcases parts_of_ofArguments h with hnone | ⟨q, harguments⟩ | ⟨t, q, ht, hfields⟩
  · rw [hnone] at hpart
    cases hpart
  · exact Scan.length_lt_of_mem_arguments harguments hpart
  · rw [hfields] at hpart
    exact Scan.length_lt_of_mem_userType ht hpart

/-- The outermost level of a class name is read inside its wrapper, behind the name. -/
theorem ofArguments_of_ofClassName {decoder : Decoder} {sink : Sink} {className : List Char}
    {layer : Layer (List Char)} (h : (ofClassName decoder sink className).outcome = .ok layer) :
    ∃ wrapper inner, unwrap className = .ok (wrapper, inner) ∧
      ofArguments decoder (wrapper = .frozen) inner (Place.start inner).skipBlanks.afterName
        (Head.ofName (Place.start inner).skipBlanks.name) = .ok layer := by
  simp only [ofClassName, Reading.outcome_bind_eq_ok_iff, Reading.outcome_ofExcept] at h
  obtain ⟨⟨wrapper, inner⟩, hunwrap, h⟩ := h
  simp only [ofUnwrapped, Reading.outcome_bind_eq_ok_iff, Reading.outcome_ofExcept,
    Reading.outcome_pure] at h
  obtain ⟨_, _, layer', hlayer, _, _, heq⟩ := h
  cases heq
  exact ⟨wrapper, inner, hunwrap, hlayer⟩

/-- The parts of a layer are shorter than the class name. -/
theorem length_lt_of_mem_parts {decoder : Decoder} {sink : Sink} {className : List Char}
    {layer : Layer (List Char)} (h : (ofClassName decoder sink className).outcome = .ok layer)
    {part : List Char} (hpart : part ∈ layer.parts) : part.length < className.length := by
  obtain ⟨wrapper, inner, hunwrap, hlayer⟩ := ofArguments_of_ofClassName h
  have := length_le_of_unwrap hunwrap
  have := length_lt_of_mem_ofArguments hlayer hpart
  have := (Place.start inner).skipBlanks.length_afterName_le
  have := (Place.start inner).length_skipBlanks_le
  rw [Place.unread_start] at this
  omega

end SchemaTypes.CqlType.Layer
