import SchemaTypes.Proofs.ClassName.Invariants

/-!
# Scans fail inside their text

No scan looks at a character behind the end of its text. A scan that starts inside its text ends
inside it, and if it fails, the fault is structural: it is reported at a position of the text or at
its end. The one collaborator of a scan is its decoder, which has to object to the text it was
given if it gives no name.

## Main definitions

* `Place.Inside`: no more characters have been passed than there are.
* `Fault.Raised`, `Fault.Structural`: the faults of scans inside a text, and those of a class name
  at a position inside it.
* `Scan.Safe`: scans that end inside their text, with a value or with a structural fault.

## Main results

* `Fault.Raised.structural`: the fault of a scan is structural.
* `Scan.Keeps.safe`: scans that go forwards are safe.
-/

namespace SchemaTypes.ClassName

/-- The fault is one of a class name, at a position of its text or at its end. -/
def Fault.Structural (fault : Fault) : Prop :=
  ∃ f causes, fault = .malformed f causes ∧ f.position ≤ f.className.length

/-- Where the decoder gives no name it objects to the text. -/
def Decoder.BlamesText (decoder : Decoder) : Prop :=
  ∀ dump fault, decoder dump = .error fault → fault.blamesText = true

theorem blamesText_hexDump : Decoder.hexDump.BlamesText := by
  intro dump fault h
  rw [Decoder.hexDump] at h
  cases hdecode : Text.HexDump.decode dump with
  | ok text =>
    rw [hdecode] at h
    cases h
  | error f =>
    rw [hdecode] at h
    cases h
    rfl

namespace Place

/-- No more characters have been passed than the text has. -/
def Inside (p : Place) : Prop := p.offset ≤ p.text.length

/-- A front part of what is left is passed. -/
theorem onward_inside : Onward Inside := by
  intro p n h hn
  unfold Inside at h ⊢
  rw [unread, List.length_drop] at hn
  simp only [Place.advance]
  omega

namespace Inside

variable {p : Place}

theorem start (text : List Char) : (Place.start text).Inside := Nat.zero_le _

theorem structural (h : p.Inside) (reason : Reason) (causes : List Cause) :
    (Fault.malformed (p.fault reason) causes).Structural := by
  refine ⟨p.fault reason, causes, rfl, ?_⟩
  unfold Inside at h
  simpa only [Place.fault, String.length_ofList] using h

theorem skipBlanks (h : p.Inside) : p.skipBlanks.Inside := onward_inside.skipBlanks h

theorem afterName (h : p.Inside) : p.afterName.Inside := onward_inside.afterName h

end Inside

end Place

/-- If the decoder objects to texts only, a fault is one of the class name. -/
theorem Fault.RaisedAt.exists_malformed {decoder : Decoder} (hdecoder : decoder.BlamesText)
    {p : Place} {fault : Fault} (h : fault.RaisedAt decoder p) :
    ∃ reason causes, fault = .malformed (p.fault reason) causes := by
  cases h with
  | plain hplain =>
    cases hplain
    exact ⟨_, _, rfl⟩
  | inArgument => exact ⟨_, _, rfl⟩
  | undecodable => exact ⟨_, _, rfl⟩
  | decoder hname hblames =>
    rw [hdecoder _ _ hname] at hblames
    cases hblames

/-- The fault is raised by a scan inside its text. -/
def Fault.Raised (decoder : Decoder) (fault : Fault) : Prop :=
  ∃ p : Place, p.Inside ∧ fault.RaisedAt decoder p

/-- The fault of a scan is structural, if its decoder objects to the text. -/
theorem Fault.Raised.structural {decoder : Decoder} (hdecoder : decoder.BlamesText) {fault : Fault}
    (h : fault.Raised decoder) : fault.Structural := by
  obtain ⟨p, hp, hraised⟩ := h
  obtain ⟨reason, causes, rfl⟩ := hraised.exists_malformed hdecoder
  exact hp.structural reason causes

namespace Scan

variable {α β : Type} {decoder : Decoder}

/-- From inside its text a scan fails with a fault that is raised there. -/
theorem Keeps.raised {scan : Scan α} (h : Keeps Place.Inside (Fault.RaisedAt decoder) scan)
    {p q : Place} (hp : p.Inside) {fault : Fault} (hscan : scan p = .error fault q) :
    fault.Raised decoder :=
  ⟨q, (h.keepsAt hp).of_error hscan⟩

/-- From a place, the scan ends inside the text, with a value or with a structural fault. -/
def SafeAt (scan : Scan α) (p : Place) : Prop :=
  match scan p with
  | .ok _ q => q.Inside
  | .error fault q => q.Inside ∧ fault.Structural

/-- From inside the text the scan ends inside the text, with a value or with a structural
fault. -/
structure Safe (scan : Scan α) : Prop where
  /-- The scan is safe at each place inside the text. -/
  safeAt : ∀ {p : Place}, p.Inside → SafeAt scan p

theorem SafeAt.structural {scan : Scan α} {p : Place} (h : SafeAt scan p) {fault : Fault}
    {q : Place} (hscan : scan p = .error fault q) : fault.Structural := by
  unfold SafeAt at h
  rw [hscan] at h
  exact h.2

/-- To be safe is to keep inside the text, with structural faults. -/
theorem safe_iff_keeps {scan : Scan α} :
    Safe scan ↔ Keeps Place.Inside (fun _ fault => fault.Structural) scan :=
  ⟨fun h => ⟨h.safeAt⟩, fun h => ⟨h.keepsAt⟩⟩

/-- Scans that go forwards are safe. -/
theorem Keeps.safe {scan : Scan α} (hdecoder : decoder.BlamesText)
    (h : Keeps Place.Inside (Fault.RaisedAt decoder) scan) : Safe scan :=
  safe_iff_keeps.2 (h.mono fun hq hfault => Fault.Raised.structural hdecoder ⟨_, hq, hfault⟩)

theorem safe_argument : Safe argument :=
  (keeps_argument Place.onward_inside).safe blamesText_hexDump

theorem safe_items {item : Scan α} {headway : Headway item} (hitem : Safe item) :
    Safe (items item headway) :=
  safe_iff_keeps.2 (keeps_items Place.onward_inside (safe_iff_keeps.1 hitem) fun hq =>
    hq.structural _ _)

theorem safe_opened {list : Scan (List α)} (hlist : Safe list) : Safe (opened list) :=
  safe_iff_keeps.2 (keeps_opened Place.onward_inside (safe_iff_keeps.1 hlist) fun hq =>
    hq.structural _ _)

theorem safe_arguments : Safe arguments := safe_opened (safe_items safe_argument)

theorem safe_namedUnits (hdecoder : decoder.BlamesText) : Safe (namedUnits decoder) :=
  (keeps_namedUnits Place.onward_inside).safe hdecoder

end Scan

end SchemaTypes.ClassName
