import SchemaTypes.Proofs.CqlType.Expr
import SchemaTypes.Proofs.CqlType.Outcome

/-!
# Written expressions are read back

Reading the text of an expression gives the type that the expression stands for. The outermost
level is read back from the texts of the arguments, which are kept unread; the arguments are read
by induction.

## Main results

* `Layer.outcome_ofClassName_around`: the outermost level of a written class.
* `ofClassName_render`: the type of a written expression.
-/

namespace SchemaTypes

namespace ClassName

/-- Where a unit starts stands its name, and behind the name its group. -/
theorem Place.start_unit {name group : List Char} (hname : IsName name)
    (hgroup : group = [] ∨ IsGroup group) :
    (start (name ++ group)).skipBlanks = start (name ++ group) ∧
      (start (name ++ group)).name = name ∧
        (start (name ++ group)).afterName.unread = group := by
  have hunread : (start (name ++ group)).unread = name ++ group := rfl
  have hend := head_group hgroup .nil
  rw [List.append_nil] at hend
  -- No identifier character starts a group, so that the name ends where the group starts.
  have hnameOf := name_of_append hunread hname fun c hc => (hend c hc).1
  refine ⟨skipBlanks_eq_self ?_, hnameOf, ?_⟩
  · rw [hunread]
    simpa only [List.append_nil] using head_unit ⟨name, group, rfl, hname, hgroup⟩ .nil
  · rw [afterName, hnameOf]
    exact unread_advance_of_append hunread

end ClassName

namespace CqlType

open ClassName

namespace Layer

theorem soleArgument_listText {word text : List Char} (hword : IsName word)
    (htext : IsUnit text ∧ text ≠ []) : soleArgument (word ++ listText [text]) = .ok text := by
  obtain ⟨hskip, -, hafter⟩ :=
    Place.start_unit hword (.inr (isGroup_listText_singleton htext.1))
  rw [soleArgument, hskip, Scan.expectArguments_of_isUnit (List.forall_mem_singleton.2 htext)
    List.length_singleton _ (hafter.trans (List.append_nil _).symm)]
  rfl

/-- A wrapper is taken off, with nothing else around the text than the wrapper. -/
theorem unwrap_around {wrapper : Wrapper} {text : List Char} (htext : IsUnit text ∧ text ≠ [])
    (hbare : wrapper = .none → IsBare text) :
    unwrap (wrapper.around text) = .ok (wrapper, text) := by
  have hreversed := wrapper.isReversed_around hbare
  have hfrozen := wrapper.isFrozen_around hbare
  rw [unwrap, hreversed, hfrozen]
  cases wrapper with
  | none => rfl
  | frozen =>
    rw [if_neg (by decide), if_pos (by decide), Wrapper.around,
      soleArgument_listText isName_frozenClass htext]
    rfl
  | reversed =>
    rw [if_pos (by decide), Wrapper.around, soleArgument_listText isName_reversedClass htext]
    rfl

/-- The arguments of a written class are read back. -/
theorem ofArguments_group {bare : Bare (List Char)} (h : bare.Writable) (frozen : Bool)
    {p : Place} (hunread : p.unread = bare.group) :
    ofArguments .hexDump frozen bare.text p bare.head = .ok (bare.layer frozen) := by
  have hlist (kind : CollectionKind) {texts : List (List Char)}
      (htexts : ∀ text ∈ texts, IsUnit text ∧ text ≠ []) (hcount : texts.length = kind.arity)
      (hp : p.unread = listText texts) :
      ofArguments .hexDump frozen bare.text p (.collection kind) =
        ofElements frozen kind texts := by
    simp only [ofArguments, Scan.expectArguments_of_isUnit htexts hcount _
      (hp.trans (List.append_nil _).symm)]
  cases bare with
  | native t => rfl
  | list element => exact hlist .list h.isUnit rfl hunread
  | set element => exact hlist .set h.isUnit rfl hunread
  | map key value => exact hlist .map h.isUnit rfl hunread
  | tuple elements =>
    have harguments := Scan.arguments_of_isUnit h.isUnit (hunread.trans (List.append_nil _).symm)
    simp only [Bare.head, ofArguments, harguments]
    rfl
  | userType keyspace name fields =>
    have hfields : ∀ field ∈ fields, IsUnit field.2 := fun field hfield =>
      h.isUnit_part _ (List.mem_map_of_mem hfield)
    -- The fields are bound by name, and distinct names keep them in order.
    obtain ⟨q, hq⟩ := Scan.userType_of_isUnit keyspace.isName hfields h.nodup
      (hunread.trans (List.append_nil _).symm)
    simp only [Bare.head, ofArguments, hq]
    rfl
  | unknown u => rfl

/-- The outermost level of a written class, with what is reported about it. -/
theorem ofClassName_around {bare : Bare (List Char)} (h : bare.Writable) (sink : Sink)
    (wrapper : Wrapper) : ofClassName .hexDump sink (wrapper.around bare.text) = (do
      reportWrapper sink wrapper bare.head
      reportUnknown bare.head bare.text
      pure (bare.layer (wrapper = .frozen))) := by
  have hunwrap : unwrap (wrapper.around bare.text) = .ok (wrapper, bare.text) :=
    unwrap_around (Bare.isUnit_text h.isUnit_part) fun _ => Bare.isBare_text h.isUnit_part
  obtain ⟨hskip, hname, hafter⟩ :=
    Place.start_unit bare.isName_className (Bare.isGroup_group h.isUnit_part)
  have hlayer := ofArguments_group h (wrapper = .frozen) hafter
  rw [ofClassName, hunwrap]
  change ofUnwrapped .hexDump sink wrapper bare.text = _
  rw [Bare.text] at hlayer ⊢
  rw [ofUnwrapped, hskip, hname, bare.ofName_className, hlayer]
  rfl

/-- The outermost level of a written class. -/
theorem outcome_ofClassName_around {bare : Bare (List Char)} (h : bare.Writable) {sink : Sink}
    (hsink : sink.Accepts) (wrapper : Wrapper) :
    (ofClassName .hexDump sink (wrapper.around bare.text)).outcome =
      .ok (bare.layer (wrapper = .frozen)) := by
  rw [ofClassName_around h]
  refine (Reading.outcome_bind_of_ok (outcome_reportWrapper hsink _ _) _).trans ?_
  exact Reading.outcome_bind_of_ok (outcome_reportUnknown _ _) _

/-- The parts of a written level are read, if the texts of all arguments can be read. -/
theorem outcome_traverse_layer {α β : Type} {bare : Bare α} {g : α → List Char} {f : α → β}
    (read : List Char → Reading β) (h : ∀ a ∈ bare.parts, (read (g a)).outcome = .ok (f a))
    (frozen : Bool) :
    (((bare.mapParts g).layer frozen).traverse fun part _ => read part).outcome =
      .ok ((bare.mapParts f).layer frozen) := by
  cases bare with
  | native t => rfl
  | unknown u => rfl
  | list element =>
    change (read (g element) >>= _).outcome = _
    rw [Reading.outcome_bind_of_ok (h element (.head _))]
    rfl
  | set element =>
    change (read (g element) >>= _).outcome = _
    rw [Reading.outcome_bind_of_ok (h element (.head _))]
    rfl
  | map key value =>
    change (read (g key) >>= _).outcome = _
    rw [Reading.outcome_bind_of_ok (h key (.head _)),
      Reading.outcome_bind_of_ok (h value (.tail _ (.head _)))]
    rfl
  | tuple elements =>
    have heach := Reading.outcome_each_map read rfl h
    change (Reading.each (elements.map g) (fun part _ => read part) >>= _).outcome = _
    exact Reading.outcome_bind_of_ok heach _
  | userType keyspace name fields =>
    have hfields : ∀ field ∈ fields, (read (g field.2)).outcome = .ok (f field.2) :=
      fun field hfield => h _ (List.mem_map_of_mem hfield)
    -- The names are taken off before the types are read, and put back to them in order.
    have heach := Reading.outcome_each_map read (Bindings.values_map g fields) hfields
    refine (Reading.outcome_bind_of_ok heach _).trans ?_
    rw [Bindings.names_map, List.zip_map']
    rfl

end Layer

/-- The texts of expressions may be written as arguments. -/
theorem Bare.writable_render {bare : Bare Expr} (h : bare.fieldNames.Nodup) :
    (bare.mapParts Expr.render).Writable where
  isUnit := by
    rw [parts_mapParts, List.forall_mem_map]
    intro e _
    exact e.isUnit_render
  nodup := by rwa [fieldNames_mapParts]

/-- The text of an expression is read as the type it stands for. -/
theorem outcome_ofChars_render {e : Expr} (he : e.DistinctFields) {sink : Sink}
    (hsink : sink.Accepts) : (ofChars .hexDump sink e.render).outcome = .ok e.type := by
  induction e using Expr.induct with
  | mk wrapper bare ih =>
    obtain ⟨hnames, hparts⟩ := (Expr.distinctFields_mk wrapper bare).1 he
    -- One level is read from the texts of the arguments, and these by the induction hypothesis.
    have hread : ∀ e ∈ bare.parts, (ofChars .hexDump sink e.render).outcome = .ok e.type :=
      fun e hmem => ih e hmem (hparts e hmem)
    rw [Expr.render_mk, Expr.type_mk, ← Bare.ofLayer_layer,
      outcome_ofChars
        (Layer.outcome_ofClassName_around (Bare.writable_render hnames) hsink wrapper),
      Layer.outcome_traverse_layer (ofChars .hexDump sink) hread]
    rfl

/-- Reading undoes writing: the text of an expression, however deep, is read as the type that the
expression stands for. -/
theorem ofClassName_render (e : Expr) (he : e.DistinctFields) (sink : Sink)
    (hsink : sink.Accepts) :
    (ofClassName .hexDump sink (String.ofList e.render)).outcome = .ok e.type := by
  rw [ofClassName, String.toList_ofList]
  exact outcome_ofChars_render he hsink

/-- A class that is not known, with something in its parentheses. -/
def pointClass : UnknownClass where
  name := "com.example.Point".toList
  group := "(3d)".toList
  name_ne_nil := by decide
  isName := by decide
  isGroup := .inr ⟨"3d".toList, IsName.balanced (by decide), rfl⟩
  not_prefix := by decide +kernel
  ne_nativeClass := native?_eq_none_iff.1 (by decide +kernel)

/-- The wrapper that freezes makes a map and the set of its keys frozen, and the one that reverses
leaves a list as it is. The fields of a user-defined type are kept in order. -/
theorem ofClassName_render_frozen_map :
    let set := frozenClass ++ listText [CollectionKind.set.className ++ listText [nativeClass .int]]
    let list :=
      reversedClass ++ listText [CollectionKind.list.className ++ listText [nativeClass .text]]
    let userType := userTypeClass ++ listText ["ks".toList, (Text.HexDump.encode "point").toList,
      namedText ("x", list), namedText ("y", tupleClass ++ listText []),
      namedText ("z", "com.example.Point(3d)".toList)]
    let map := frozenClass ++ listText [CollectionKind.map.className ++ listText [set, userType]]
    (ofClassName .hexDump .collect (String.ofList map)).outcome =
      .ok (.map true (.set true (.native .int)) (.udt true "ks" "point"
        [("x", .list false (.native .text)), ("y", .tuple []),
          ("z", .custom "com.example.Point(3d)")])) :=
  ofClassName_render
    (.mk .frozen (.map (.mk .frozen (.set (.mk .none (.native .int))))
      (.mk .none (.userType ⟨"ks".toList, by decide⟩ "point"
        [("x", .mk .reversed (.list (.mk .none (.native .text)))), ("y", .mk .none (.tuple [])),
          ("z", .mk .none (.unknown pointClass))]))))
    (by simp) .collect Sink.accepts_collect

end CqlType

end SchemaTypes
