import SchemaTypes.Proofs.ClassName.Faults

/-!
# How a fault tells what is behind it

A fault has at most one cause, and its reason is worded after it. If an argument is malformed, the
list around it tells the reason once more, at the same position of the same text. If a decoder
objects to a text, the text and the objection are quoted. Any other reason starts differently.

## Main definitions

* `argumentPhrase`, `decoderPhrase`: how the reason of a fault with a cause starts.
* `SyntaxFault.Explains`: the causes that a fault accounts for.

## Main results

* `Reason.standsAlone_of_isPlain`: the words of a scan itself start with neither phrase.
* `Fault.Raised.explains`: the faults of scans account for their causes.
-/

namespace SchemaTypes.ClassName

/-- How a reason starts if the fault was met inside an argument. -/
def argumentPhrase : String := "exception while parsing around char "

/-- How a reason starts if a decoder objects to a text. -/
def decoderPhrase : String := "cannot decode hex identifier '"

/-- Neither phrase starts with the other. -/
def Differ (phrase phrase' : String) : Prop :=
  ¬ phrase.toList <+: phrase'.toList ∧ ¬ phrase'.toList <+: phrase.toList

instance (phrase phrase' : String) : Decidable (Differ phrase phrase') :=
  inferInstanceAs (Decidable (_ ∧ _))

/-- A text that starts with one phrase does not start with another one. -/
theorem Differ.not_prefix {phrase opening text : String} (h : Differ phrase opening)
    (htext : opening.toList <+: text.toList) : ¬ phrase.toList <+: text.toList :=
  fun hphrase => (List.prefix_or_prefix_of_prefix hphrase htext).elim h.1 h.2

theorem toList_prefix_append (text rest : String) : text.toList <+: (text ++ rest).toList := by
  rw [String.toList_append]
  exact List.prefix_append _ _

namespace Reason

/-- The part of a reason that is the same whatever was found. -/
def opening : Reason → String
  | .groupExpected _ => "expecting '(' but '"
  | .soleArgumentExpected _ => "expected exactly 1 type parameter, got "
  | .argumentCount kind _ => kind.simpleName
  | reason => reason.text

theorem opening_prefix (reason : Reason) : reason.opening.toList <+: reason.text.toList := by
  cases reason with
  | groupExpected found => exact (toList_prefix_append _ _).trans (toList_prefix_append _ _)
  | soleArgumentExpected count => exact toList_prefix_append _ _
  | argumentCount kind count =>
    have happend := toList_prefix_append
    exact (((happend _ _).trans (happend _ _)).trans (happend _ _)).trans (happend _ _)
  | _ => exact List.prefix_rfl

theorem differ_opening {reason : Reason} (h : reason.isPlain = true) :
    Differ argumentPhrase reason.opening ∧ Differ decoderPhrase reason.opening := by
  cases reason with
  | groupExpected found => rw [opening]; decide +kernel
  | soleArgumentExpected count => rw [opening]; decide +kernel
  | argumentCount kind count =>
    rw [opening]
    cases kind <;> decide +kernel
  | undecodable dump fault => cases h
  | inArgument position inner => cases h
  | stated text => cases h
  | _ => decide +kernel

/-- The reason starts neither as if it told of an argument nor as if it quoted a decoder. -/
structure StandsAlone (reason : Reason) : Prop where
  not_argument : ¬ argumentPhrase.toList <+: reason.text.toList
  not_decoder : ¬ decoderPhrase.toList <+: reason.text.toList

/-- A scan that speaks for itself uses neither phrase. -/
theorem standsAlone_of_isPlain {reason : Reason} (h : reason.isPlain = true) :
    reason.StandsAlone := by
  obtain ⟨hargument, hdecoder⟩ := differ_opening h
  exact ⟨hargument.not_prefix reason.opening_prefix, hdecoder.not_prefix reason.opening_prefix⟩

end Reason

/-- The causes are those that the fault tells of: none, a fault at the same position of the same
text, whose reason is told again, or what a decoder answered for a text that is quoted. -/
inductive SyntaxFault.Explains (decoder : Decoder) (fault : SyntaxFault) : List Cause → Prop
  | alone : fault.reason.StandsAlone → Explains decoder fault []
  | inArgument {inner : SyntaxFault} :
      fault.className = inner.className → fault.position = inner.position →
      fault.reason.text =
        argumentPhrase ++ toString fault.position ++ ": " ++ inner.reason.text →
      inner.reason.StandsAlone → Explains decoder fault [.malformed inner]
  | undecodable {dump : String} {objection : DecoderFault} :
      decoder dump = .error objection →
      fault.reason.text = decoderPhrase ++ dump ++ "': " ++ objection.message →
      Explains decoder fault [.decoder objection]

/-- A fault tells of one cause at most. -/
theorem SyntaxFault.Explains.length_le {decoder : Decoder} {fault : SyntaxFault}
    {causes : List Cause} (h : fault.Explains decoder causes) : causes.length ≤ 1 := by
  cases h <;> simp

/-- The fault of a scan tells of its causes. -/
theorem Fault.Raised.explains {decoder : Decoder} {fault : SyntaxFault} {causes : List Cause}
    (h : Fault.Raised decoder (.malformed fault causes)) : fault.Explains decoder causes := by
  obtain ⟨p, -, hraised⟩ := h
  cases hraised with
  | plain hplain =>
    obtain ⟨hreason⟩ := hplain
    exact .alone (Reason.standsAlone_of_isPlain hreason)
  | inArgument hreason =>
    exact .inArgument rfl rfl rfl (Reason.standsAlone_of_isPlain hreason)
  | undecodable hname => exact .undecodable hname rfl

end SchemaTypes.ClassName
