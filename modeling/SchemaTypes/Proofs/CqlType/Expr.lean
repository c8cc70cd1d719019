import SchemaTypes.CqlType.Layer.OfClassName
import SchemaTypes.Proofs.ClassName.Arguments
import SchemaTypes.Proofs.ClassName.Words

/-!
# Class name expressions

The class names that a schema is written with: below an optional wrapper stands a native class, a
class with arguments, which are expressions again, or a class that is not known. An expression is
written as a text and stands for a type.

## Main definitions

* `Keyspace`, `UnknownClass`: the texts that may stand in an expression as they are.
* `Bare`: a class name without its wrapper, over arguments of any kind.
* `Expr`, with `Expr.fold`: expressions, and functions by recursion over them.
* `Expr.render`, `Expr.type`: the text of an expression, and the type it stands for.

## Main results

* `Bare.ofLayer_layer`: the type of a class is the one with its outermost level.
* `Expr.isUnit_render`: an expression is written as a unit.
-/

namespace SchemaTypes.CqlType

open ClassName Layer

/-- The name of a keyspace, which is not dumped. -/
structure Keyspace where
  /-- The characters of the name. -/
  chars : List Char
  /-- They are identifier characters. -/
  isName : IsName chars

/-- A class that is not known: a name with a meaning to nobody, and a group that may hold
anything. -/
structure UnknownClass where
  /-- The name of the class. -/
  name : List Char
  /-- The group that follows the name, with its parentheses; it may be missing. -/
  group : List Char
  name_ne_nil : name ≠ []
  isName : IsName name
  isGroup : group = [] ∨ IsGroup group
  /-- The name starts with no wrapper and with no class that takes arguments. -/
  not_prefix : ∀ word ∈ structuredClasses, ¬ word <+: name
  /-- The name is not that of a native class. -/
  ne_nativeClass : ∀ t, name ≠ nativeClass t

/-- A class name without its wrapper, over arguments of any kind. -/
inductive Bare (α : Type)
  | native (t : NativeType)
  | list (element : α)
  | set (element : α)
  | map (key value : α)
  | tuple (elements : List α)
  | userType (keyspace : Keyspace) (name : String) (fields : List (String × α))
  | unknown (u : UnknownClass)

namespace Bare

variable {α β : Type}

/-- The arguments from left to right. -/
@[simp]
def parts : Bare α → List α
  | .native _ => []
  | .list element => [element]
  | .set element => [element]
  | .map key value => [key, value]
  | .tuple elements => elements
  | .userType _ _ fields => fields.map Prod.snd
  | .unknown _ => []

/-- The names of the fields, if it is a user-defined type. -/
@[simp]
def fieldNames : Bare α → List String
  | .userType _ _ fields => fields.map Prod.fst
  | _ => []

/-- The same class over other arguments. -/
def mapParts (f : α → β) : Bare α → Bare β
  | .native t => .native t
  | .list element => .list (f element)
  | .set element => .set (f element)
  | .map key value => .map (f key) (f value)
  | .tuple elements => .tuple (elements.map f)
  | .userType keyspace name fields =>
    .userType keyspace name (fields.map fun field => (field.1, f field.2))
  | .unknown u => .unknown u

/-- The name of the class. -/
def className : Bare α → List Char
  | .native t => nativeClass t
  | .list _ => CollectionKind.list.className
  | .set _ => CollectionKind.set.className
  | .map _ _ => CollectionKind.map.className
  | .tuple _ => tupleClass
  | .userType _ _ _ => userTypeClass
  | .unknown u => u.name

/-- What the name of the class announces. -/
def head : Bare α → Head
  | .native t => .native t
  | .list _ => .collection .list
  | .set _ => .collection .set
  | .map _ _ => .collection .map
  | .tuple _ => .tuple
  | .userType _ _ _ => .userType
  | .unknown _ => .unknown

/-- The group behind the name, from the texts of the arguments. -/
def group : Bare (List Char) → List Char
  | .native _ => []
  | .list element => listText [element]
  | .set element => listText [element]
  | .map key value => listText [key, value]
  | .tuple elements => listText elements
  | .userType keyspace name fields =>
    listText (keyspace.chars :: (Text.HexDump.encode name).toList :: fields.map namedText)
  | .unknown u => u.group

/-- The text of a class from the texts of its arguments. -/
def text (bare : Bare (List Char)) : List Char := bare.className ++ bare.group

/-- The outermost level of the type that the class stands for. -/
def layer (frozen : Bool) : Bare α → Layer α
  | .native t => .native t
  | .list element => .list frozen element
  | .set element => .set frozen element
  | .map key value => .map frozen key value
  | .tuple elements => .tuple elements
  | .userType keyspace name fields => .udt (String.ofList keyspace.chars) name fields
  | .unknown u => .custom (String.ofList (u.name ++ u.group))

/-- The type that a class stands for, over the types of its arguments. Only collections are told
apart by whether they are frozen; user-defined types always are. -/
def type (frozen : Bool) : Bare CqlType → CqlType
  | .native t => .native t
  | .list element => .list frozen element
  | .set element => .set frozen element
  | .map key value => .map frozen key value
  | .tuple elements => .tuple elements
  | .userType keyspace name fields => .udt true (String.ofList keyspace.chars) name fields
  | .unknown u => .custom (String.ofList (u.name ++ u.group))

/-- The type with the outermost level of a class is the type that the class stands for. -/
theorem ofLayer_layer (frozen : Bool) (bare : Bare CqlType) :
    ofLayer (bare.layer frozen) = bare.type frozen := by
  cases bare <;> rfl

@[simp]
theorem parts_mapParts (f : α → β) (bare : Bare α) :
    (bare.mapParts f).parts = bare.parts.map f := by
  cases bare <;> simp [mapParts, parts]

@[simp]
theorem fieldNames_mapParts (f : α → β) (bare : Bare α) :
    (bare.mapParts f).fieldNames = bare.fieldNames := by
  cases bare <;> simp [mapParts, fieldNames]

theorem isName_className (bare : Bare α) : IsName bare.className := by
  cases bare with
  | native t => exact isName_nativeClass t
  | list _ => exact ClassName.isName_className .list
  | set _ => exact ClassName.isName_className .set
  | map _ _ => exact ClassName.isName_className .map
  | tuple _ => exact isName_tupleClass
  | userType _ _ _ => exact isName_userTypeClass
  | unknown u => exact u.isName

theorem className_ne_nil (bare : Bare α) : bare.className ≠ [] := by
  cases bare with
  | unknown u => exact u.name_ne_nil
  | _ => exact inPackage_ne_nil _

theorem ofName_className (bare : Bare α) : Head.ofName bare.className = bare.head := by
  cases bare with
  | native t => exact Head.ofName_nativeClass t
  | list _ => exact Head.ofName_className .list
  | set _ => exact Head.ofName_className .set
  | map _ _ => exact Head.ofName_className .map
  | tuple _ => exact Head.ofName_tupleClass
  | userType _ _ _ => exact Head.ofName_userTypeClass
  | unknown u => exact Head.ofName_of_unknown u.not_prefix u.ne_nativeClass

theorem isBare_className (bare : Bare α) : IsBare bare.className := by
  have hword {name : List Char} (h : name ∈ structuredClasses.drop 2) : IsBare name :=
    isBare_of_mem (List.mem_append_left _ h)
  cases bare with
  | native t => exact isBare_of_mem (List.mem_append_right _ (List.mem_map_of_mem t.mem_all))
  | list _ => exact hword (.head _)
  | set _ => exact hword (.tail _ (.head _))
  | map _ _ => exact hword (.tail _ (.tail _ (.head _)))
  | userType _ _ _ => exact hword (.tail _ (.tail _ (.tail _ (.head _))))
  | tuple _ => exact hword (.tail _ (.tail _ (.tail _ (.tail _ (.head _)))))
  | unknown u => exact isBare_of_unknown u.not_prefix

/-- The group behind the name of a class is one group, or there is none. -/
theorem isGroup_group {bare : Bare (List Char)} (h : ∀ part ∈ bare.parts, IsUnit part) :
    bare.group = [] ∨ IsGroup bare.group := by
  have hlist {texts : List (List Char)} (htexts : ∀ text ∈ texts, IsUnit text) :
      IsGroup (listText texts) := isGroup_listText fun text ht => (htexts text ht).balanced
  cases bare with
  | native t => exact .inl rfl
  | list element => exact .inr (hlist h)
  | set element => exact .inr (hlist h)
  | map key value => exact .inr (hlist h)
  | tuple elements => exact .inr (hlist h)
  | userType keyspace name fields =>
    -- The keyspace and the dump of the name are texts without parentheses.
    refine .inr (isGroup_listText ?_)
    simp only [List.forall_mem_cons, List.forall_mem_map]
    refine ⟨keyspace.isName.balanced, (isName_encode name).balanced, fun field hfield => ?_⟩
    exact balanced_namedText (h _ (List.mem_map_of_mem hfield))
  | unknown u => exact u.isGroup

/-- A class is written as a unit if its arguments are. -/
theorem isUnit_text {bare : Bare (List Char)} (h : ∀ part ∈ bare.parts, IsUnit part) :
    IsUnit bare.text ∧ bare.text ≠ [] :=
  ⟨⟨bare.className, bare.group, rfl, bare.isName_className, isGroup_group h⟩,
    List.append_ne_nil_of_left_ne_nil bare.className_ne_nil _⟩

/-- A written class starts with neither wrapper. -/
theorem isBare_text {bare : Bare (List Char)} (h : ∀ part ∈ bare.parts, IsUnit part) :
    IsBare bare.text := by
  obtain ⟨hreversed, hfrozen⟩ := bare.isBare_className
  -- The group behind the name starts with a parenthesis, which belongs to no word.
  have hend := head_group (isGroup_group h) .nil
  rw [List.append_nil] at hend
  refine ⟨?_, ?_⟩
  · rw [text, isReversed_append fun c hc => (hend c hc).1, hreversed]
  · rw [text, isFrozen_append fun c hc => (hend c hc).1, hfrozen]

/-- Arguments that may be written: each is a unit with a text, and the names of fields are
distinct. -/
structure Writable (bare : Bare (List Char)) : Prop where
  /-- Each argument is a unit with a text. -/
  isUnit : ∀ part ∈ bare.parts, IsUnit part ∧ part ≠ []
  /-- The names of the fields are distinct. -/
  nodup : bare.fieldNames.Nodup

end Bare

/-- A text with the wrapper around it. -/
def Layer.Wrapper.around : Wrapper → List Char → List Char
  | .none, text => text
  | .frozen, text => frozenClass ++ listText [text]
  | .reversed, text => reversedClass ++ listText [text]

theorem Bare.Writable.isUnit_part {bare : Bare (List Char)} (h : bare.Writable) :
    ∀ part ∈ bare.parts, IsUnit part := fun part hpart => (h.isUnit part hpart).1

theorem Layer.Wrapper.isUnit_around (wrapper : Wrapper) {text : List Char}
    (h : IsUnit text ∧ text ≠ []) : IsUnit (wrapper.around text) ∧ wrapper.around text ≠ [] := by
  have hgroup := isGroup_listText_singleton h.1
  have hne (word : List Char) : word ++ listText [text] ≠ [] :=
    List.append_ne_nil_of_right_ne_nil _ (List.cons_ne_nil _ _)
  cases wrapper with
  | none => exact h
  | frozen => exact ⟨⟨_, _, rfl, isName_frozenClass, .inr hgroup⟩, hne _⟩
  | reversed => exact ⟨⟨_, _, rfl, isName_reversedClass, .inr hgroup⟩, hne _⟩

theorem Layer.Wrapper.isReversed_around (wrapper : Wrapper) {text : List Char}
    (h : wrapper = .none → IsBare text) :
    isReversed (wrapper.around text) = decide (wrapper = .reversed) := by
  cases wrapper with
  | none => exact (h rfl).1
  | frozen => exact (isReversed_append (head_listText _)).trans (by decide +kernel)
  | reversed => exact (isReversed_append (head_listText _)).trans (by decide +kernel)

theorem Layer.Wrapper.isFrozen_around (wrapper : Wrapper) {text : List Char}
    (h : wrapper = .none → IsBare text) :
    isFrozen (wrapper.around text) = decide (wrapper = .frozen) := by
  cases wrapper with
  | none => exact (h rfl).2
  | frozen => exact (isFrozen_append (head_listText _)).trans (by decide +kernel)
  | reversed => exact (isFrozen_append (head_listText _)).trans (by decide +kernel)

/-- An expression: a class name with the wrapper around it. -/
inductive Expr
  | mk (wrapper : Wrapper) (bare : Bare Expr)

namespace Expr

variable {β : Type}

mutual

/-- The function on expressions that takes a wrapper and a class, over the values for the
arguments, to a value. -/
def fold (f : Wrapper → Bare β → β) : Expr → β
  | .mk wrapper bare => f wrapper (foldBare f bare)

/-- A class over the values for its arguments. -/
def foldBare (f : Wrapper → Bare β → β) : Bare Expr → Bare β
  | .native t => .native t
  | .list element => .list (fold f element)
  | .set element => .set (fold f element)
  | .map key value => .map (fold f key) (fold f value)
  | .tuple elements => .tuple (foldAll f elements)
  | .userType keyspace name fields => .userType keyspace name (foldFields f fields)
  | .unknown u => .unknown u

/-- The values for expressions. -/
def foldAll (f : Wrapper → Bare β → β) : List Expr → List β
  | [] => []
  | e :: rest => fold f e :: foldAll f rest

/-- The values for fields. -/
def foldFields (f : Wrapper → Bare β → β) : List (String × Expr) → List (String × β)
  | [] => []
  | (name, e) :: rest => (name, fold f e) :: foldFields f rest

end

theorem foldAll_eq_map (f : Wrapper → Bare β → β) (es : List Expr) :
    foldAll f es = es.map (fold f) := by
  induction es with
  | nil => rfl
  | cons e rest ih => rw [foldAll, ih, List.map_cons]

theorem foldFields_eq_map (f : Wrapper → Bare β → β) (fields : List (String × Expr)) :
    foldFields f fields = fields.map fun field => (field.1, fold f field.2) := by
  induction fields with
  | nil => rfl
  | cons field rest ih => rw [foldFields, ih, List.map_cons]

/-- A function by recursion goes into the arguments. -/
theorem fold_mk (f : Wrapper → Bare β → β) (wrapper : Wrapper) (bare : Bare Expr) :
    fold f (.mk wrapper bare) = f wrapper (bare.mapParts (fold f)) := by
  rw [fold]
  -- A case for each class, in which mapping over a list is the recursion over it.
  congr 1
  cases bare <;> simp only [foldBare, Bare.mapParts, foldAll_eq_map, foldFields_eq_map]

theorem sizeOf_lt_of_mem_parts {bare : Bare Expr} {e : Expr} (h : e ∈ bare.parts) :
    sizeOf e < sizeOf bare := by
  cases bare with
  | native t => simp at h
  | unknown u => simp at h
  | list element =>
    obtain rfl := List.mem_singleton.1 h
    simp
  | set element =>
    obtain rfl := List.mem_singleton.1 h
    simp
  | map key value =>
    rcases List.mem_pair.1 h with rfl | rfl
    · simp +arith
    · simp +arith
  | tuple elements =>
    have : sizeOf e < sizeOf elements := List.sizeOf_lt_of_mem h
    rw [Bare.tuple.sizeOf_spec]
    omega
  | userType keyspace name fields =>
    obtain ⟨⟨fieldName, e⟩, hfield, rfl⟩ := List.mem_map.1 h
    have := List.sizeOf_lt_of_mem hfield
    rw [Prod.mk.sizeOf_spec] at this
    change sizeOf e < _
    rw [Bare.userType.sizeOf_spec]
    omega

/-- Induction over expressions: what holds of an expression if it holds of the arguments. -/
theorem induct {motive : Expr → Prop}
    (mk : ∀ wrapper bare, (∀ e ∈ bare.parts, motive e) → motive (.mk wrapper bare)) :
    ∀ e, motive e
  | .mk wrapper bare => mk wrapper bare fun e _he => induct mk e
decreasing_by
  have := sizeOf_lt_of_mem_parts _he
  simp only [Expr.mk.sizeOf_spec]
  omega

/-- The text of an expression. -/
def render : Expr → List Char := fold fun wrapper bare => wrapper.around bare.text

/-- The type that an expression stands for: the wrapper that freezes makes a collection frozen, and
no wrapper changes any other type. -/
def type : Expr → CqlType := fold fun wrapper bare => bare.type (wrapper = .frozen)

/-- No user-defined type in the expression has two fields of one name. -/
def DistinctFields : Expr → Prop :=
  fold fun _ bare => bare.fieldNames.Nodup ∧ ∀ distinct ∈ bare.parts, distinct

/-- The wrapper around the expression. -/
def wrapper : Expr → Wrapper
  | .mk wrapper _ => wrapper

/-- The expression is wrapped in the wrapper that reverses. -/
def isReversed (e : Expr) : Bool := e.wrapper = .reversed

theorem render_mk (wrapper : Wrapper) (bare : Bare Expr) :
    render (.mk wrapper bare) = wrapper.around (bare.mapParts render).text :=
  fold_mk _ wrapper bare

theorem type_mk (wrapper : Wrapper) (bare : Bare Expr) :
    type (.mk wrapper bare) = (bare.mapParts type).type (wrapper = .frozen) :=
  fold_mk _ wrapper bare

@[simp]
theorem distinctFields_mk (wrapper : Wrapper) (bare : Bare Expr) :
    DistinctFields (.mk wrapper bare) ↔
      bare.fieldNames.Nodup ∧ ∀ e ∈ bare.parts, e.DistinctFields := by
  rw [DistinctFields, fold_mk, Bare.fieldNames_mapParts, Bare.parts_mapParts, List.forall_mem_map]

/-- An expression is written as a unit. -/
theorem isUnit_render (e : Expr) : IsUnit e.render ∧ e.render ≠ [] := by
  induction e using induct with
  | mk wrapper bare ih =>
    -- The arguments are units by the induction hypothesis, and so is the class around them.
    rw [render_mk]
    apply Wrapper.isUnit_around
    apply Bare.isUnit_text
    rw [Bare.parts_mapParts, List.forall_mem_map]
    intro e he
    exact (ih e he).1

/-- The arguments of a class are written as units. -/
theorem isUnit_parts_render (bare : Bare Expr) :
    ∀ part ∈ (bare.mapParts render).parts, IsUnit part := by
  rw [Bare.parts_mapParts, List.forall_mem_map]
  intro e _
  exact e.isUnit_render.1

/-- The text of an expression starts with the wrapper that reverses if the expression does. -/
theorem isReversed_render (e : Expr) : ClassName.isReversed e.render = e.isReversed := by
  cases e with
  | mk wrapper bare =>
    -- The arguments are units, so that the text of the class starts with no wrapper.
    rw [render_mk, wrapper.isReversed_around fun _ => Bare.isBare_text (isUnit_parts_render bare)]
    rfl

end Expr

end SchemaTypes.CqlType
