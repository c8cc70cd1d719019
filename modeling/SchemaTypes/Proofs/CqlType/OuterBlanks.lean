import SchemaTypes.Proofs.ClassName.LeadingName
import SchemaTypes.Proofs.CqlType.Kinds
import SchemaTypes.Proofs.CqlType.RoundTrip
import SchemaTypes.Proofs.CqlType.Spacing
import SchemaTypes.Proofs.Text.Identifier

/-!
# Blanks around the outermost name

An argument of a class is kept without the blanks around its name, but the outermost class name is
read as it stands. Its name is looked for behind blanks, while a wrapper is looked for at the very
front of the text, so that blanks in front hide it. Behind the name a list of arguments has to start
at once, while the arguments of a user-defined type may start behind blanks.

## Main results

* `ofChars_of_hidden_wrapper`: a wrapper behind blanks is kept as an unknown class.
* `outcome_ofChars_blanks_bare`: blanks in front of a class without a wrapper do not count.
* `outcome_ofChars_name_blank`: where a blank behind the name is malformed.
* `outcome_ofChars_userType_blanks`: where blanks behind the name do not count.
* `ofClassName_outer_blanks_iff`: blanks around the outermost name of an expression.
-/

namespace SchemaTypes

namespace ClassName

/-- A name ends before a blank. -/
theorem isIdentifierChar_head {c : Char} (hblank : isBlank c = true) (rest : List Char) :
    ∀ d ∈ (c :: rest).head?, isIdentifierChar d = false := by
  rintro _ ⟨⟩
  exact isIdentifierChar_eq_false_of_isBlank hblank

namespace Scan

/-- A list of arguments does not start behind blanks. -/
theorem arguments_of_blank {p : Place} {c : Char} {rest : List Char}
    (hunread : p.unread = c :: rest) (hblank : isBlank c = true) :
    arguments p = fail (.groupExpected c) p := by
  rw [arguments, opened_apply, hunread]
  refine if_neg ?_
  rintro rfl
  exact absurd hblank (by decide)

/-- The arguments of a user-defined type may start behind blanks. -/
theorem userType_skipBlanks (decoder : Decoder) (p : Place) :
    userType decoder p.skipBlanks = userType decoder p := by
  have hskip : p.skipBlanks.skipBlanks = p.skipBlanks :=
    Place.skipBlanks_eq_self p.head_skipBlanks
  have hmark : mark '(' .userTypeGroupExpected p.skipBlanks =
      mark '(' .userTypeGroupExpected p := by
    rw [mark_apply, mark_apply, hskip]
  cases hfirst : mark '(' .userTypeGroupExpected p with
  | ok _ q =>
    rw [userType, bind_of_eq_ok hfirst, bind_of_eq_ok (hmark.trans hfirst)]
  | error fault q =>
    rw [userType, bind_of_eq_error hfirst, bind_of_eq_error (hmark.trans hfirst)]

end Scan

end ClassName

namespace CqlType

open ClassName Layer

variable {decoder : Decoder} {sink : Sink} {wrapper : Wrapper} {bare : Bare Expr}
  {name blanks rest : List Char} {c : Char}

theorem isBare_cons (hblank : isBlank c = true) (text : List Char) : IsBare (c :: text) :=
  ⟨isPrefixOf_cons_eq_false isName_reversedClass (inPackage_ne_nil _) hblank text,
    isPrefixOf_cons_eq_false isName_frozenClass (inPackage_ne_nil _) hblank text⟩

/-- A wrapper behind blanks is not taken off: with the blanks, it is kept as an unknown class. -/
theorem ofChars_of_hidden_wrapper {word className : List Char}
    (hword : word ∈ [reversedClass, frozenClass]) (hbare : IsBare className)
    (hbehind : word.isPrefixOf (className.dropWhile isBlank) = true) :
    ofChars decoder sink className =
      ⟨[.keptVerbatim (String.ofList className)], .ok (.custom (String.ofList className))⟩ := by
  -- The name behind the blanks starts like the wrapper, which announces nothing.
  have hname : word.isPrefixOf (Place.start className).skipBlanks.name = true := by
    rw [Place.name_start, isPrefixOf_leadingName (isName_wrapper hword).1, hbehind]
  obtain ⟨more, hmore⟩ := List.isPrefixOf_iff_prefix.1 hname
  exact ofChars_of_unknown hbare (hmore ▸ ofName_wrapper_append hword more)

/-- Behind the name of a wrapper its argument has to start at once. -/
theorem ofChars_wrapper_blank {word : List Char} (hword : word ∈ [reversedClass, frozenClass])
    (hblank : isBlank c = true) (rest : List Char) :
    ofChars decoder sink (word ++ c :: rest) =
      .fail (.malformed ⟨String.ofList (word ++ c :: rest), word.length, .groupExpected c⟩ []) := by
  obtain ⟨hname, hne⟩ := isName_wrapper hword
  have hnotBare : ¬ IsBare (word ++ c :: rest) := by
    rintro ⟨hreversed, hfrozen⟩
    have hfront := isPrefixOf_append_self word (c :: rest)
    rcases List.mem_pair.1 hword with rfl | rfl
    · exact Bool.false_ne_true (hreversed.symm.trans hfront)
    · exact Bool.false_ne_true (hfrozen.symm.trans hfront)
  obtain ⟨-, hafter⟩ := Place.start_name hname hne (isIdentifierChar_head hblank rest)
  have hsole : soleArgument (word ++ c :: rest) = .error
      (.malformed ⟨String.ofList (word ++ c :: rest), word.length, .groupExpected c⟩ []) := by
    have harguments := Scan.arguments_of_blank (Place.unread_mk word (c :: rest)) hblank
    rw [soleArgument, hafter, Scan.expectArguments, Scan.bind_of_eq_error harguments]
    rfl
  rw [ofChars_eq_bind, Layer.ofClassName, unwrap_of_not_isBare hnotBare, hsole]
  rfl

/-- A list of arguments behind blanks is malformed where the blanks start. -/
theorem Layer.ofArguments_of_blank {frozen : Bool} {className : List Char} {p : Place}
    (hunread : p.unread = c :: rest) (hblank : isBlank c = true) {head : Head}
    (hhead : head = .tuple ∨ ∃ kind, head = .collection kind) :
    ofArguments decoder frozen className p head =
      .error (.malformed (p.fault (.groupExpected c)) []) := by
  have harguments := Scan.arguments_of_blank hunread hblank
  obtain rfl | ⟨kind, rfl⟩ := hhead
  · simp only [ofArguments, harguments]
    rfl
  · simp only [ofArguments, Scan.expectArguments, Scan.bind_of_eq_error harguments]

/-- The text of a known class does not count beside its name and its arguments. -/
theorem Layer.ofArguments_congr {frozen : Bool} {p : Place} {head : Head} (h : head ≠ .unknown)
    (className className' : List Char) :
    ofArguments decoder frozen className p head =
      ofArguments decoder frozen className' p head := by
  cases head with
  | unknown => exact absurd rfl h
  | _ => rfl

/-- A known class is read from its name, and from its arguments at any place from which they are
read like from behind the name. -/
theorem outcome_ofUnwrapped_of_group (he : (Expr.mk wrapper bare).DistinctFields)
    (hknown : bare.head ≠ .unknown) (hsink : sink.Accepts) {text : List Char} {p : Place}
    (hname : (Place.start text).skipBlanks.name = (bare.mapParts Expr.render).className)
    (hplace : ofArguments .hexDump (wrapper = .frozen) text
        (Place.start text).skipBlanks.afterName bare.head =
      ofArguments .hexDump (wrapper = .frozen) text p bare.head)
    (hgroup : p.unread = (bare.mapParts Expr.render).group) :
    (ofUnwrapped .hexDump sink wrapper text).outcome = .ok (Expr.mk wrapper bare).type := by
  obtain ⟨hnames, hparts⟩ := (Expr.distinctFields_mk wrapper bare).1 he
  have hlayer : ofArguments .hexDump (wrapper = .frozen) text
      (Place.start text).skipBlanks.afterName
      (Head.ofName (Place.start text).skipBlanks.name) =
        .ok ((bare.mapParts Expr.render).layer (wrapper = .frozen)) := by
    rw [hname, Bare.ofName_className, Bare.head_mapParts, hplace,
      ofArguments_congr hknown _ (bare.mapParts Expr.render).text, ← Bare.head_mapParts Expr.render]
    exact ofArguments_group (Bare.writable_render hnames) _ hgroup
  have hread : ∀ e ∈ bare.parts, (ofChars .hexDump sink e.render).outcome = .ok e.type :=
    fun e hmem => outcome_ofChars_render (hparts e hmem) hsink
  rw [outcome_ofUnwrapped_of_ofArguments hsink hlayer,
    outcome_traverse_layer (ofChars .hexDump sink) hread, Expr.type_mk, ← Bare.ofLayer_layer]
  rfl

/-- The outermost name of an expression is that of its wrapper, or that of the class without a
wrapper. -/
theorem eq_of_render_eq (hname : IsName name)
    (h : (Expr.mk wrapper bare).render = name ++ '(' :: rest) :
    wrapper ≠ .none ∧ name ∈ [reversedClass, frozenClass] ∨
      wrapper = .none ∧ name = (bare.mapParts Expr.render).className ∧
        '(' :: rest = (bare.mapParts Expr.render).group := by
  -- A run of identifier characters ends where a group starts.
  have hsplit {word group : List Char} (hword : IsName word)
      (hgroup : ∀ c ∈ group.head?, isIdentifierChar c = false)
      (heq : word ++ group = name ++ '(' :: rest) : word = name ∧ group = '(' :: rest :=
    Text.append_inj_of_head hword hname hgroup (by simp [isIdentifierChar]) heq
  rw [Expr.render_mk] at h
  cases wrapper with
  | none =>
    have hend := head_group (Bare.isGroup_group (Expr.isUnit_parts_render bare)) .nil
    rw [List.append_nil] at hend
    obtain ⟨hclass, hgroup⟩ := hsplit (Bare.isName_className _) (fun c hc => (hend c hc).1) h
    exact .inr ⟨rfl, hclass.symm, hgroup.symm⟩
  | frozen =>
    obtain ⟨rfl, -⟩ := hsplit isName_frozenClass (head_listText _) h
    exact .inl ⟨by decide, by simp⟩
  | reversed =>
    obtain ⟨rfl, -⟩ := hsplit isName_reversedClass (head_listText _) h
    exact .inl ⟨by decide, by simp⟩

/-- Blanks in front of a wrapper hide it. -/
theorem ofChars_blanks_wrapped (hwrapper : wrapper ≠ .none) (hblanks : IsBlanks blanks)
    (hne : blanks ≠ []) :
    ofChars decoder sink (blanks ++ (Expr.mk wrapper bare).render) =
      ⟨[.keptVerbatim (String.ofList (blanks ++ (Expr.mk wrapper bare).render))],
        .ok (.custom (String.ofList (blanks ++ (Expr.mk wrapper bare).render)))⟩ := by
  obtain ⟨c, blanks, rfl⟩ := List.exists_cons_of_ne_nil hne
  obtain ⟨word, hword, group, hrender⟩ : ∃ word ∈ [reversedClass, frozenClass], ∃ group,
      (Expr.mk wrapper bare).render = word ++ group := by
    rw [Expr.render_mk]
    cases wrapper with
    | none => exact absurd rfl hwrapper
    | frozen => exact ⟨frozenClass, by simp, _, rfl⟩
    | reversed => exact ⟨reversedClass, by simp, _, rfl⟩
  refine ofChars_of_hidden_wrapper hword (isBare_cons (hblanks c (.head _)) _) ?_
  -- The wrapper stands at the front of what follows the blanks.
  have hfront := isPrefixOf_append_self word group
  rw [List.dropWhile_append_of_pos hblanks, hrender,
    dropWhile_isBlank_of_isPrefixOf (isName_wrapper hword).1 (isName_wrapper hword).2 hfront]
  exact hfront

/-- Blanks in front of a class without a wrapper do not count. -/
theorem outcome_ofChars_blanks_bare (he : (Expr.mk .none bare).DistinctFields)
    (hknown : bare.head ≠ .unknown) (hsink : sink.Accepts) (hblanks : IsBlanks blanks) :
    (ofChars .hexDump sink (blanks ++ (Expr.mk .none bare).render)).outcome =
      .ok (Expr.mk .none bare).type := by
  have hparts := Expr.isUnit_parts_render bare
  have hrender : (Expr.mk .none bare).render = (bare.mapParts Expr.render).text :=
    Expr.render_mk _ _
  have hbare : IsBare (blanks ++ (Expr.mk .none bare).render) := by
    cases blanks with
    | nil => exact hrender ▸ Bare.isBare_text hparts
    | cons c blanks => exact isBare_cons (hblanks c (.head _)) _
  have hend := head_group (Bare.isGroup_group hparts) .nil
  have hstart := head_unit (Bare.isUnit_text hparts).1 .nil
  rw [List.append_nil] at hend hstart
  obtain ⟨hname, hgroup⟩ := Place.start_of_append hblanks
    (longest_isName_iff.2 ⟨(bare.mapParts Expr.render).isName_className, fun c hc => (hend c hc).1⟩)
    hstart
  rw [ofChars_of_unwrap (unwrap_of_isBare hbare), hrender]
  exact outcome_ofUnwrapped_of_group he hknown hsink hname rfl hgroup

/-- Blanks behind the name of a class without a wrapper end the name, and nothing else. -/
theorem Bare.start_className_blank {α : Type} (bare : Bare α) (hblank : isBlank c = true)
    (rest : List Char) :
    IsBare (bare.className ++ c :: rest) ∧
      (Place.start (bare.className ++ c :: rest)).skipBlanks.name = bare.className ∧
      (Place.start (bare.className ++ c :: rest)).skipBlanks.afterName =
        ⟨bare.className ++ c :: rest, bare.className.length⟩ := by
  obtain ⟨hreversed, hfrozen⟩ := bare.isBare_className
  have htail := isIdentifierChar_head hblank rest
  refine ⟨⟨?_, ?_⟩, Place.start_name bare.isName_className bare.className_ne_nil htail⟩
  · rw [isReversed_append htail, hreversed]
  · rw [isFrozen_append htail, hfrozen]

/-- Behind the name of a collection or a tuple its arguments have to start at once. -/
theorem outcome_ofChars_list_blank {α : Type} {bare : Bare α}
    (hhead : bare.head = .tuple ∨ ∃ kind, bare.head = .collection kind) (hsink : sink.Accepts)
    (hblank : isBlank c = true) (rest : List Char) :
    (ofChars decoder sink (bare.className ++ c :: rest)).outcome =
      .error (.malformed ⟨String.ofList (bare.className ++ c :: rest), bare.className.length,
        .groupExpected c⟩ []) := by
  obtain ⟨hbare, hname, hafter⟩ := bare.start_className_blank hblank rest
  rw [ofChars_of_unwrap (unwrap_of_isBare hbare), ofUnwrapped]
  refine Reading.outcome_bind_eq_error_iff.2 (.inl ?_)
  rw [outcome_ofUnwrapped hsink, hname, bare.ofName_className, hafter,
    ofArguments_of_blank (Place.unread_mk _ _) hblank hhead]
  rfl

/-- Behind the name of a user-defined type its arguments may start behind blanks. -/
theorem outcome_ofChars_userType_blanks (he : (Expr.mk .none bare).DistinctFields)
    (hhead : bare.head = .userType) (hsink : sink.Accepts) (hblanks : IsBlanks (c :: blanks))
    (hgroup : '(' :: rest = (bare.mapParts Expr.render).group) :
    (ofChars .hexDump sink ((bare.mapParts Expr.render).className ++
      c :: (blanks ++ '(' :: rest))).outcome = .ok (Expr.mk .none bare).type := by
  obtain ⟨hbare, hname, hafter⟩ := (bare.mapParts Expr.render).start_className_blank
    (hblanks c (.head _)) (blanks ++ '(' :: rest)
  have hknown : bare.head ≠ .unknown := by
    rw [hhead]
    exact Head.noConfusion
  -- The arguments are read where the blanks end.
  have hplace (text : List Char) (p : Place) : ofArguments .hexDump false text p bare.head =
      ofArguments .hexDump false text p.skipBlanks bare.head := by
    simp only [hhead, ofArguments, Scan.userType_skipBlanks]
  have hunread : (Place.skipBlanks ⟨(bare.mapParts Expr.render).className ++
      c :: (blanks ++ '(' :: rest), (bare.mapParts Expr.render).className.length⟩).unread =
        (bare.mapParts Expr.render).group := by
    rw [Place.unread_skipBlanks, Place.unread_mk, ← hgroup, ← List.cons_append,
      List.dropWhile_append_of_pos hblanks]
    exact List.dropWhile_cons_of_neg (by decide)
  rw [ofChars_of_unwrap (unwrap_of_isBare hbare)]
  exact outcome_ofUnwrapped_of_group he hknown hsink hname (hafter ▸ hplace _ _) hunread

/-- A known class with a group is a user-defined type, or it has a list of arguments. -/
theorem Bare.head_of_group_ne_nil {bare : Bare (List Char)} (hgroup : bare.group ≠ [])
    (hknown : bare.head ≠ .unknown) (hhead : bare.head ≠ .userType) :
    bare.head = .tuple ∨ ∃ kind, bare.head = .collection kind := by
  cases bare with
  | native t => exact absurd rfl hgroup
  | unknown u => exact absurd rfl hknown
  | userType keyspace name fields => exact absurd rfl hhead
  | tuple elements => exact .inl rfl
  | list element => exact .inr ⟨.list, rfl⟩
  | set element => exact .inr ⟨.set, rfl⟩
  | map key value => exact .inr ⟨.map, rfl⟩

/-- A blank behind the outermost name of an expression is malformed, unless this is the name of a
user-defined type. -/
theorem outcome_ofChars_name_blank (hknown : bare.head ≠ .unknown) (hsink : sink.Accepts)
    (hname : IsName name) (hrender : (Expr.mk wrapper bare).render = name ++ '(' :: rest)
    (hnot : ¬ (wrapper = .none ∧ bare.head = .userType)) (hblank : isBlank c = true)
    (behind : List Char) :
    (ofChars decoder sink (name ++ c :: behind)).outcome =
      .error (.malformed ⟨String.ofList (name ++ c :: behind), name.length, .groupExpected c⟩
        []) := by
  rcases eq_of_render_eq hname hrender with ⟨-, hword⟩ | ⟨hwrapper, rfl, hgroup⟩
  · exact congrArg Reading.outcome (ofChars_wrapper_blank hword hblank behind)
  · have hhead := Bare.head_mapParts Expr.render bare
    refine outcome_ofChars_list_blank (Bare.head_of_group_ne_nil ?_ ?_ ?_) hsink hblank behind
    · exact hgroup ▸ List.cons_ne_nil _ _
    · rwa [hhead]
    · rw [hhead]
      exact fun huser => hnot ⟨hwrapper, huser⟩

/-- An expression stands for a type of the kind that its class announces. -/
theorem Expr.head_type (wrapper : Wrapper) (bare : Bare Expr) :
    (Expr.mk wrapper bare).type.head = bare.head := by
  rw [Expr.type_mk]
  cases bare <;> rfl

/-- Blanks around the outermost name of a known class do not count in front of it if there is no
wrapper, and behind it if the class is a user-defined type without a wrapper. Otherwise blanks in
front hide the wrapper, so that the text is kept as an unknown class, and the first of the blanks
behind the name is malformed. -/
theorem ofClassName_outer_blanks_iff (wrapper : Wrapper) (bare : Bare Expr)
    (he : (Expr.mk wrapper bare).DistinctFields) (hknown : bare.head ≠ .unknown)
    (hsink : sink.Accepts) (hblanks : IsBlanks blanks) :
    let e := Expr.mk wrapper bare
    let read (text : List Char) := (ofClassName .hexDump sink (String.ofList text)).outcome
    read e.render = .ok e.type ∧
    (read (blanks ++ e.render) = .ok e.type ↔ blanks = [] ∨ wrapper = .none) ∧
    (blanks ≠ [] → wrapper ≠ .none →
      read (blanks ++ e.render) = .ok (.custom (String.ofList (blanks ++ e.render)))) ∧
    ∀ name rest, IsName name → e.render = name ++ '(' :: rest →
      let text := name ++ (blanks ++ '(' :: rest)
      (read text = .ok e.type ↔ blanks = [] ∨ wrapper = .none ∧ bare.head = .userType) ∧
      (¬ (wrapper = .none ∧ bare.head = .userType) → ∀ c ∈ blanks.head?, read text =
        .error (.malformed ⟨String.ofList text, name.length, .groupExpected c⟩ [])) := by
  intro e read
  have hread (text : List Char) : read text = (ofChars .hexDump sink text).outcome := by
    simp only [read, ofClassName, String.toList_ofList]
  have hrender : read e.render = .ok e.type := (hread _).trans (outcome_ofChars_render he hsink)
  have hhidden (hne : blanks ≠ []) (hwrapper : wrapper ≠ .none) :
      read (blanks ++ e.render) = .ok (.custom (String.ofList (blanks ++ e.render))) := by
    rw [hread, ofChars_blanks_wrapped hwrapper hblanks hne]
  refine ⟨hrender, ⟨fun h => ?_, fun h => ?_⟩, hhidden, fun name rest hname hsplit => ?_⟩
  · -- A known class is not of the kind of an unknown one.
    by_contra hnot
    rw [not_or] at hnot
    rw [hhidden hnot.1 hnot.2] at h
    have hhead := congrArg head (Except.ok.inj h)
    rw [Expr.head_type] at hhead
    exact hknown hhead.symm
  · rcases h with rfl | rfl
    · exact hrender
    · exact (hread _).trans (outcome_ofChars_blanks_bare he hknown hsink hblanks)
  · intro text
    have hmalformed (hnot : ¬ (wrapper = .none ∧ bare.head = .userType)) (c : Char)
        (hc : c ∈ blanks.head?) : read text =
          .error (.malformed ⟨String.ofList text, name.length, .groupExpected c⟩ []) := by
      obtain ⟨more, rfl⟩ := List.head?_eq_some_iff.1 hc
      rw [hread]
      exact outcome_ofChars_name_blank hknown hsink hname hsplit hnot (hblanks c (.head _)) _
    refine ⟨⟨fun h => ?_, fun h => ?_⟩, hmalformed⟩
    · by_contra hnot
      rw [not_or] at hnot
      obtain ⟨c, more, rfl⟩ := List.exists_cons_of_ne_nil hnot.1
      rw [hmalformed hnot.2 c rfl] at h
      cases h
    · cases blanks with
      | nil => exact (congrArg read hsplit).symm.trans hrender
      | cons c blanks =>
        obtain ⟨rfl, hhead⟩ := h.resolve_left (List.cons_ne_nil c blanks)
        obtain ⟨-, rfl, hgroup⟩ := (eq_of_render_eq hname hsplit).resolve_left fun h => h.1 rfl
        exact (hread _).trans (outcome_ofChars_userType_blanks he hhead hsink hblanks hgroup)

/-- A user-defined type is read with blanks in front of its name, and with blanks behind it. -/
theorem ofClassName_outer_blanks_iff_userType :
    let group := listText ["ks".toList, (Text.HexDump.encode "point").toList,
      namedText ("x", nativeClass .int)]
    let type := CqlType.udt true "ks" "point" [("x", .native .int)]
    (ofClassName .hexDump .collect
      (String.ofList (" \n".toList ++ (userTypeClass ++ group)))).outcome = .ok type ∧
    (ofClassName .hexDump .collect
      (String.ofList (userTypeClass ++ (" \n".toList ++ group)))).outcome = .ok type := by
  intro group type
  let bare : Bare Expr :=
    .userType ⟨"ks".toList, by decide⟩ "point" [("x", .mk .none (.native .int))]
  have he : (Expr.mk .none bare).DistinctFields := by
    simp [bare]
  have hblanks : IsBlanks " \n".toList := by decide +kernel
  obtain ⟨-, hfront, -, hbehind⟩ := ofClassName_outer_blanks_iff .none bare he Head.noConfusion
    Sink.accepts_collect hblanks
  exact ⟨hfront.2 (.inr rfl),
    (hbehind userTypeClass _ isName_userTypeClass rfl).1.2 (.inr ⟨rfl, rfl⟩)⟩

/-- A blank in front of a reversed integer hides the wrapper, and a blank behind the name of a list
is malformed. -/
theorem outcome_ofClassName_blank_around :
    let reversed := reversedClass ++ listText [nativeClass .int]
    let listed := CollectionKind.list.className ++ ' ' :: listText [nativeClass .int]
    (ofClassName .hexDump .collect (String.ofList reversed)).outcome = .ok (.native .int) ∧
    (ofClassName .hexDump .collect (String.ofList (' ' :: reversed))).outcome =
      .ok (.custom (String.ofList (' ' :: reversed))) ∧
    (ofClassName .hexDump .collect (String.ofList (CollectionKind.list.className ++
      listText [nativeClass .int]))).outcome = .ok (.list false (.native .int)) ∧
    (ofClassName .hexDump .collect (String.ofList listed)).outcome =
      .error (.malformed ⟨String.ofList listed, CollectionKind.list.className.length,
        .groupExpected ' '⟩ []) := by
  intro reversed listed
  have hsink := Sink.accepts_collect
  have hint : (Expr.mk .reversed (.native .int)).DistinctFields := by
    simp
  have hlist : (Expr.mk .none (.list (.mk .none (.native .int)))).DistinctFields := by
    simp
  have hhidden : ofChars .hexDump .collect
      ([' '] ++ (Expr.mk .reversed (.native .int)).render) = _ :=
    ofChars_blanks_wrapped (by decide) (by decide) (by decide)
  have hmalformed : (ofChars .hexDump .collect ((Bare.list (nativeClass .int)).className ++
      ' ' :: listText [nativeClass .int])).outcome = _ :=
    outcome_ofChars_list_blank (.inr ⟨.list, rfl⟩) hsink rfl _
  simp only [ofClassName, String.toList_ofList]
  exact ⟨outcome_ofChars_render hint hsink, congrArg Reading.outcome hhidden,
    outcome_ofChars_render hlist hsink, hmalformed⟩

end CqlType

end SchemaTypes
