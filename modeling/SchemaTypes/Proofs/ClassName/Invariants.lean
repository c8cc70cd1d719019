import SchemaTypes.ClassName.UserType

/-!
# What scans keep

A scan goes forwards: it passes characters that are left, and it goes to the end of a text that has
not ended. So whatever is kept by passing characters is kept by every scan, whether it reads a value
or fails. If it fails, it says why at the place where it stops. In the words of a scan itself there
is nothing behind such a fault; a fault inside an argument is told once more by the list around it,
and a decoder that objects to a text is quoted.

## Main definitions

* `Place.Onward`: what is kept by passing characters.
* `Reason.isPlain`, `Fault.PlainAt`: faults in the words of a scan itself.
* `Fault.RaisedAt`: the faults of scans, with a decoder.
* `Scan.Keeps`: what a scan keeps, and how it fails.

## Main results

* `Scan.Keeps.bind`, `Scan.keeps_items`: sequences and lists of items.
* `Scan.keeps_unit`: units fail in words of their own.
* `Scan.keeps_arguments`, `Scan.keeps_namedArguments`, `Scan.keeps_userType`: whole lists of
  arguments.
-/

namespace SchemaTypes.ClassName

theorem length_separator_le (comma : Bool) (text : List Char) :
    (separator comma text).length ≤ text.length := by
  fun_induction separator comma text with
  | case1 => exact Nat.le_refl _
  | case2 comma c rest hblank ih => exact Nat.succ_le_succ ih
  | case3 comma c rest hblank hcomma ih => exact Nat.succ_le_succ ih
  | case4 => exact Nat.zero_le _

namespace Place

variable {I : Place → Prop} {p : Place}

/-- What holds of a place also holds behind characters that are left there. -/
def Onward (I : Place → Prop) : Prop :=
  ∀ {p : Place} {n : Nat}, I p → n ≤ p.unread.length → I (p.advance n)

/-- The end is behind all characters that are left. -/
theorem toEnd_eq_advance (h : p.unread ≠ []) : p.toEnd = p.advance p.unread.length := by
  have hpos := List.length_pos_iff.2 h
  rw [unread, List.length_drop] at hpos ⊢
  rw [toEnd, advance]
  exact congrArg (Place.mk p.text) (by omega)

theorem Onward.skipBlanks (hI : Onward I) (hp : I p) : I p.skipBlanks :=
  hI hp (List.takeWhile_sublist _).length_le

theorem Onward.skipSeparator (hI : Onward I) (hp : I p) : I p.skipSeparator :=
  hI hp (length_separator_le false p.unread)

theorem Onward.afterName (hI : Onward I) (hp : I p) : I p.afterName :=
  hI hp (List.takeWhile_sublist _).length_le

theorem Onward.advance_one (hI : Onward I) (hp : I p) {c : Char} {rest : List Char}
    (hunread : p.unread = c :: rest) : I (p.advance 1) :=
  hI hp (by rw [hunread, List.length_cons]; omega)

end Place

/-- The reason is given in words of its own. The others report an earlier fault, quote a decoder or
are given by a caller. -/
def Reason.isPlain : Reason → Bool
  | .undecodable _ _ => false
  | .inArgument _ _ => false
  | .stated _ => false
  | _ => true

/-- A fault at a place, in the words of the scan that meets it. -/
inductive Fault.PlainAt (p : Place) : Fault → Prop
  | mk {reason : Reason} : reason.isPlain = true → PlainAt p (.malformed (p.fault reason) [])

/-- The faults that scans raise at a place: in words of their own, for an argument whose fault was
met there, or because the decoder gives no name for a text. -/
inductive Fault.RaisedAt (decoder : Decoder) (p : Place) : Fault → Prop
  | plain {fault : Fault} : PlainAt p fault → RaisedAt decoder p fault
  | inArgument {reason : Reason} : reason.isPlain = true → RaisedAt decoder p
      (.malformed (p.fault (.inArgument p.offset reason)) [.malformed (p.fault reason)])
  | undecodable {dump : String} {fault : DecoderFault} : decoder dump = .error fault →
      fault.blamesText = true →
      RaisedAt decoder p (.malformed (p.fault (.undecodable dump fault)) [.decoder fault])
  | decoder {dump : String} {fault : DecoderFault} : decoder dump = .error fault →
      fault.blamesText = false → RaisedAt decoder p (.decoder fault)

namespace Scan

variable {α β : Type} {I : Place → Prop} {E E' : Place → Fault → Prop} {p : Place}

/-- From a place the scan ends at one with a property, with a value or with a fault that belongs
there. -/
def KeepsAt (I : Place → Prop) (E : Place → Fault → Prop) (scan : Scan α) (p : Place) : Prop :=
  match scan p with
  | .ok _ q => I q
  | .error fault q => I q ∧ E q fault

/-- From each place with a property the scan ends at one with the property, with a value or with a
fault that belongs there. -/
structure Keeps (I : Place → Prop) (E : Place → Fault → Prop) (scan : Scan α) : Prop where
  keepsAt : ∀ {p : Place}, I p → KeepsAt I E scan p

theorem KeepsAt.of_ok {scan : Scan α} (h : KeepsAt I E scan p) {a : α} {q : Place}
    (hscan : scan p = .ok a q) : I q := by
  unfold KeepsAt at h
  rwa [hscan] at h

theorem KeepsAt.of_error {scan : Scan α} (h : KeepsAt I E scan p) {fault : Fault} {q : Place}
    (hscan : scan p = .error fault q) : I q ∧ E q fault := by
  unfold KeepsAt at h
  rwa [hscan] at h

theorem keepsAt_ok {scan : Scan α} {a : α} {q : Place} (hq : I q) (h : scan p = .ok a q) :
    KeepsAt I E scan p := by
  unfold KeepsAt
  rwa [h]

theorem keepsAt_error {scan : Scan α} {fault : Fault} {q : Place} (hq : I q) (hfault : E q fault)
    (h : scan p = .error fault q) : KeepsAt I E scan p := by
  unfold KeepsAt
  rw [h]
  exact ⟨hq, hfault⟩

/-- More faults may be allowed. -/
theorem Keeps.mono {scan : Scan α} (h : Keeps I E scan)
    (hE : ∀ {q fault}, I q → E q fault → E' q fault) : Keeps I E' scan := by
  refine ⟨fun {p} hp => ?_⟩
  have hkeeps := h.keepsAt hp
  unfold KeepsAt at hkeeps ⊢
  cases hscan : scan p with
  | ok a q => simpa only [hscan] using hkeeps
  | error fault q =>
    rw [hscan] at hkeeps
    exact ⟨hkeeps.1, hE hkeeps.1 hkeeps.2⟩

/-- A fault of the first step is a fault of the sequence, at the same place. -/
theorem bind_of_eq_error {x : Scan α} {q : Place} {fault : Fault} (h : x p = .error fault q)
    (f : α → Scan β) : (x >>= f) p = .error fault q := by
  change EStateM.bind x f p = _
  rw [EStateM.bind, h]

/-- A sequence keeps what its first step keeps, and the second one where the first one ends. -/
theorem KeepsAt.bind {x : Scan α} {f : α → Scan β} (hx : KeepsAt I E x p)
    (hf : ∀ a q, x p = .ok a q → KeepsAt I E (f a) q) : KeepsAt I E (x >>= f) p := by
  cases hscan : x p with
  | ok a q =>
    have hrest := hf a q hscan
    unfold KeepsAt at hrest ⊢
    rwa [bind_of_eq_ok hscan]
  | error fault q =>
    obtain ⟨hq, hfault⟩ := hx.of_error hscan
    exact keepsAt_error hq hfault (bind_of_eq_error hscan f)

theorem Keeps.bind {x : Scan α} {f : α → Scan β} (hx : Keeps I E x) (hf : ∀ a, Keeps I E (f a)) :
    Keeps I E (x >>= f) :=
  ⟨fun hp => (hx.keepsAt hp).bind fun a _ hscan => (hf a).keepsAt ((hx.keepsAt hp).of_ok hscan)⟩

theorem keeps_pure (a : α) : Keeps I E (pure a : Scan α) := ⟨fun hp => keepsAt_ok hp rfl⟩

theorem keeps_fail {reason : Reason} (h : ∀ {q}, I q → E q (.malformed (q.fault reason) [])) :
    Keeps I E (fail reason : Scan α) := ⟨fun hp => keepsAt_error hp (h hp) rfl⟩

theorem keeps_fail_of_isPlain {reason : Reason} (h : reason.isPlain = true) :
    Keeps I Fault.PlainAt (fail reason : Scan α) := keeps_fail fun _ => .mk h

/-- The next character is looked at only if there is one. -/
theorem keepsAt_lookAhead {ended : Scan α} {next : Char → Scan α}
    (hended : p.unread = [] → KeepsAt I E ended p)
    (hnext : ∀ c rest, p.unread = c :: rest → KeepsAt I E (next c) p) :
    KeepsAt I E (lookAhead ended next) p := by
  unfold KeepsAt
  rw [lookAhead_apply]
  cases hunread : p.unread with
  | nil => exact hended hunread
  | cons c rest => exact hnext c rest hunread

/-- There is a next character unless the text has ended. -/
theorem atEnd_of_peek {q : Place} {fault : Fault} (h : peek p = .error fault q) :
    p.atEnd = true := by
  rw [peek] at h
  split at h
  · simp at h
  · next hpeek => simpa [Place.atEnd, Place.peek?] using hpeek

/-- Decoding a name stays at its place. -/
theorem keeps_decodeName (decoder : Decoder) (dump : List Char) :
    Keeps I (Fault.RaisedAt decoder) (decodeName decoder dump) := by
  refine ⟨fun {p} hp => ?_⟩
  unfold KeepsAt
  rw [decodeName]
  cases hname : decoder (String.ofList dump) with
  | ok name => exact hp
  | error fault =>
    cases hblames : fault.blamesText with
    | true =>
      simp only [hblames, if_true]
      exact ⟨hp, .undecodable hname hblames⟩
    | false =>
      simp only [hblames, Bool.false_eq_true, if_false]
      exact ⟨hp, .decoder hname hblames⟩

variable (hI : Place.Onward I)

include hI

theorem keeps_skipBlanks : Keeps I E skipBlanks := ⟨fun hp => keepsAt_ok (hI.skipBlanks hp) rfl⟩

theorem keeps_skipSeparator : Keeps I E skipSeparator :=
  ⟨fun hp => keepsAt_ok (hI.skipSeparator hp) rfl⟩

theorem keeps_identifier : Keeps I E identifier := ⟨fun hp => keepsAt_ok (hI.afterName hp) rfl⟩

theorem keeps_name : Keeps I E name :=
  ⟨fun hp => keepsAt_ok (hI.afterName (hI.skipBlanks hp)) rfl⟩

/-- A group that is never closed is a fault at the end of the text. -/
theorem keepsAt_openGroup (hp : I p) {c : Char} {rest : List Char}
    (hunread : p.unread = c :: rest) : KeepsAt I Fault.PlainAt openGroup p := by
  unfold KeepsAt
  rw [openGroup]
  cases hbody : closing? 1 (p.unread.drop 1) with
  | none =>
    refine ⟨?_, .mk rfl⟩
    rw [Place.toEnd_eq_advance (by simp [hunread])]
    exact hI hp (Nat.le_refl _)
  | some body =>
    -- The body is a front part of what stands behind the parenthesis.
    obtain ⟨left, hleft⟩ := exists_eq_append_of_closing? hbody
    refine hI hp ?_
    have hlength := congrArg List.length hleft
    rw [hunread, List.drop_succ_cons, List.drop_zero, List.length_append] at hlength
    rw [hunread, List.length_cons]
    omega

theorem keeps_group : Keeps I Fault.PlainAt group := by
  refine (keeps_skipBlanks hI).bind fun _ => ⟨fun hp => ?_⟩
  -- Nothing at the end and before a mark, a group behind a parenthesis, and else a fault.
  refine keepsAt_lookAhead (fun _ => (keeps_pure []).keepsAt hp) fun c rest hunread => ?_
  split
  · exact (keeps_pure []).keepsAt hp
  · split
    · exact keepsAt_openGroup hI hp hunread
    · exact (keeps_fail_of_isPlain rfl).keepsAt hp

theorem keeps_unit : Keeps I Fault.PlainAt unit := by
  unfold unit
  refine (keeps_name hI).bind fun start => ?_
  exact (keeps_group hI).bind fun arguments => keeps_pure (start ++ arguments)

theorem keeps_mark (c : Char) {reason : Reason} (hreason : reason.isPlain = true) :
    Keeps I Fault.PlainAt (mark c reason) := by
  refine (keeps_skipBlanks hI).bind fun _ => ⟨fun hp => ?_⟩
  have hfail := (keeps_fail_of_isPlain (α := Unit) hreason).keepsAt hp
  refine keepsAt_lookAhead (fun _ => hfail) fun found rest hunread => ?_
  split
  · exact keepsAt_ok (hI.advance_one hp hunread) rfl
  · exact hfail

/-- A list keeps what its items keep: it is looked at only where it has not ended. -/
theorem keeps_items {item : Scan α} {headway : Headway item} (hitem : Keeps I E item)
    (hended : ∀ {q}, I q → E q (.malformed (q.fault .textEnded) [])) :
    Keeps I E (items item headway) := by
  refine ⟨fun {p} hp => ?_⟩
  unfold KeepsAt
  fun_induction items item headway p with
  | case1 p hend => exact ⟨hI.skipSeparator hp, hended (hI.skipSeparator hp)⟩
  -- The list is looked at only where it has not ended, so that looking cannot fail.
  | case2 p hend fault q hpeek => exact absurd (atEnd_of_peek hpeek) hend
  | case3 p hend q hpeek =>
    obtain ⟨rest, hunread⟩ := exists_unread_of_peek hpeek
    exact hI.advance_one (hI.skipSeparator hp) hunread
  -- What an item leaves is again a place with the property.
  | case4 p hend c r hpeek hclose fault q hscan =>
    exact (hitem.keepsAt (hI.skipSeparator hp)).of_error hscan
  | case5 p hend c r hpeek hclose a q hscan fault s hrest ih =>
    have hkeeps := ih ((hitem.keepsAt (hI.skipSeparator hp)).of_ok hscan)
    rwa [hrest] at hkeeps
  | case6 p hend c r hpeek hclose a q hscan as s hrest ih =>
    have hkeeps := ih ((hitem.keepsAt (hI.skipSeparator hp)).of_ok hscan)
    rwa [hrest] at hkeeps

theorem keeps_opened {list : Scan (List α)} (hlist : Keeps I E list)
    (hfault : ∀ {q c}, I q → E q (.malformed (q.fault (.groupExpected c)) [])) :
    Keeps I E (opened list) := by
  refine ⟨fun hp => ?_⟩
  refine keepsAt_lookAhead (fun _ => (keeps_pure []).keepsAt hp) fun c rest hunread => ?_
  split
  · have hpass : KeepsAt I E (pass 1) _ := keepsAt_ok (hI.advance_one hp hunread) rfl
    exact hpass.bind fun _ q hscan => hlist.keepsAt (hpass.of_ok hscan)
  · exact (keeps_fail hfault).keepsAt hp

section Raised

variable {decoder : Decoder}

theorem keeps_argument : Keeps I (Fault.RaisedAt decoder) argument := by
  refine ⟨fun {p} hp => ?_⟩
  have hunit := (keeps_unit hI).keepsAt hp
  unfold KeepsAt
  rw [argument]
  cases hscan : unit p with
  | ok u q => exact hunit.of_ok hscan
  | error fault q =>
    -- The fault of the unit was met here, where it is told again.
    obtain ⟨hq, ⟨hreason⟩⟩ := hunit.of_error hscan
    exact ⟨hq, .inArgument hreason⟩

theorem keeps_arguments : Keeps I (Fault.RaisedAt decoder) arguments :=
  keeps_opened hI (keeps_items hI (keeps_argument hI) fun _ => .plain (.mk rfl))
    fun _ => .plain (.mk rfl)

theorem keeps_expectArguments (count : Nat) {reason : Nat → Reason}
    (hreason : ∀ n, (reason n).isPlain = true) :
    Keeps I (Fault.RaisedAt decoder) (expectArguments count reason) := by
  refine (keeps_arguments hI).bind fun us => ?_
  split
  · exact keeps_pure us
  · exact keeps_fail fun _ => .plain (.mk (hreason _))

theorem keeps_namedUnit : Keeps I (Fault.RaisedAt decoder) (namedUnit decoder) := by
  unfold namedUnit
  refine (keeps_identifier hI).bind fun dump => ?_
  refine (keeps_decodeName decoder dump).bind fun name => ?_
  refine ((keeps_mark hI ':' rfl).mono fun _ => .plain).bind fun _ => ?_
  refine (keeps_skipBlanks hI).bind fun _ => ?_
  exact (keeps_argument hI).bind fun u => keeps_pure (name, u)

theorem keeps_namedUnits : Keeps I (Fault.RaisedAt decoder) (namedUnits decoder) :=
  (keeps_items hI (keeps_namedUnit hI) fun _ => .plain (.mk rfl)).bind fun _ => keeps_pure _

theorem keeps_namedArguments : Keeps I (Fault.RaisedAt decoder) (namedArguments decoder) :=
  keeps_opened hI (keeps_namedUnits hI) fun _ => .plain (.mk rfl)

theorem keeps_userType : Keeps I (Fault.RaisedAt decoder) (userType decoder) := by
  unfold userType
  refine ((keeps_mark hI '(' rfl).mono fun _ => .plain).bind fun _ => ?_
  refine ((keeps_unit hI).mono fun _ => .plain).bind fun keyspace => ?_
  refine (keeps_skipSeparator hI).bind fun _ => ?_
  refine ((keeps_unit hI).mono fun _ => .plain).bind fun dump => ?_
  refine (keeps_decodeName decoder dump).bind fun name => ?_
  refine (keeps_skipSeparator hI).bind fun _ => ?_
  refine (keeps_namedUnits hI).bind fun fields => ?_
  exact keeps_pure _

end Raised

end Scan

end SchemaTypes.ClassName
