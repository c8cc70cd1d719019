import Mathlib.Data.List.Basic
import SchemaTypes.Proofs.ClassName.Faults
import SchemaTypes.Proofs.CqlType.Outcome

/-!
# Types are read or the class name is malformed

Reading a type has no other fault than those of its scans, whatever the text: the arguments of a
class are taken apart only after they have been counted, and its parts are class names again.

## Main results

* `Layer.raised_of_ofClassName`: the faults of the outermost level.
* `raised_of_ofChars`, `structural_of_ofChars`: the faults of a type, at any depth.
-/

namespace SchemaTypes.CqlType

open ClassName

variable {decoder : Decoder} {sink : Sink}

namespace Layer

theorem raised_of_soleArgument {className : List Char} {fault : Fault}
    (h : soleArgument className = .error fault) : fault.Raised decoder := by
  have hkeeps : Scan.Keeps Place.Inside (Fault.RaisedAt decoder)
      (Scan.expectArguments 1 .soleArgumentExpected) :=
    Scan.keeps_expectArguments Place.onward_inside 1 fun _ => rfl
  rw [soleArgument] at h
  split at h
  · next hunits =>
    cases h
    exact hkeeps.raised (Place.Inside.start className).skipBlanks.afterName hunits
  · next units p hunits =>
    -- The list has been counted, so that it has a first element.
    obtain ⟨inner, rfl⟩ :=
      List.length_eq_one_iff.1 (Scan.arguments_of_expectArguments hunits).2
    simp [firstUnit] at h

theorem raised_of_unwrap {className : List Char} {fault : Fault}
    (h : unwrap className = .error fault) : fault.Raised decoder := by
  -- The wrapper itself cannot fail, only the search for its argument can.
  have hsole {w : Wrapper} (hw : (soleArgument className).map (w, ·) = .error fault) :
      fault.Raised decoder := by
    cases hargument : soleArgument className with
    | ok inner => simp [hargument, Except.map] at hw
    | error fault' =>
      rw [hargument] at hw
      cases hw
      exact raised_of_soleArgument hargument
  rw [unwrap] at h
  split at h
  · exact hsole h
  · split at h
    · exact hsole h
    · simp at h

/-- As many arguments as a collection takes make a level. -/
theorem exists_ofElements {kind : CollectionKind} {units : List (List Char)}
    (h : units.length = kind.arity) (frozen : Bool) :
    ∃ layer, ofElements frozen kind units = .ok layer := by
  cases kind with
  | list =>
    obtain ⟨element, rfl⟩ := List.length_eq_one_iff.1 h
    exact ⟨_, rfl⟩
  | set =>
    obtain ⟨element, rfl⟩ := List.length_eq_one_iff.1 h
    exact ⟨_, rfl⟩
  | map =>
    obtain ⟨key, value, rfl⟩ := List.length_eq_two.1 h
    exact ⟨_, rfl⟩

theorem raised_of_ofArguments {frozen : Bool} {className : List Char} {p : Place} (hp : p.Inside)
    {head : Head} {fault : Fault}
    (h : ofArguments decoder frozen className p head = .error fault) : fault.Raised decoder := by
  cases head with
  | collection kind =>
    have hkeeps : Scan.Keeps Place.Inside (Fault.RaisedAt decoder)
        (Scan.expectArguments kind.arity (.argumentCount kind)) :=
      Scan.keeps_expectArguments Place.onward_inside kind.arity fun _ => rfl
    simp only [ofArguments] at h
    split at h
    · next hunits =>
      cases h
      exact hkeeps.raised hp hunits
    · next hunits =>
      -- As many arguments as the collection takes can be taken apart.
      obtain ⟨layer, hlayer⟩ :=
        exists_ofElements (Scan.arguments_of_expectArguments hunits).2 frozen
      simp [hlayer] at h
  | userType =>
    simp only [ofArguments] at h
    split at h
    · next ht =>
      cases h
      exact (Scan.keeps_userType Place.onward_inside).raised hp ht
    · simp at h
  | tuple =>
    simp only [ofArguments] at h
    split at h
    · next hunits =>
      cases h
      exact (Scan.keeps_arguments Place.onward_inside).raised hp hunits
    · simp at h
  | native t => simp [ofArguments] at h
  | unknown => simp [ofArguments] at h

theorem raised_of_ofClassName (hsink : sink.Accepts) {className : List Char} {fault : Fault}
    (h : (ofClassName decoder sink className).outcome = .error fault) : fault.Raised decoder := by
  rcases Reading.outcome_bind_eq_error_iff.1 h with hunwrap | ⟨⟨wrapper, inner⟩, -, hlayer⟩
  · exact raised_of_unwrap hunwrap
  · rw [outcome_ofUnwrapped hsink] at hlayer
    exact raised_of_ofArguments (Place.Inside.start inner).skipBlanks.afterName hlayer

end Layer

/-- However deep a fault of a type is met, a scan has raised it: the parts of a level are shorter
class names, of which the same holds. -/
theorem raised_of_ofChars (hsink : sink.Accepts) {className : List Char} {fault : Fault}
    (h : (ofChars decoder sink className).outcome = .error fault) : fault.Raised decoder := by
  induction hlength : className.length using Nat.strongRecOn generalizing className with
  | ind n ih =>
    subst hlength
    rcases exists_of_outcome_ofChars h with h | ⟨part, hshorter, h⟩
    · exact Layer.raised_of_ofClassName hsink h
    · exact ih part.length hshorter h rfl

theorem structural_of_ofChars (hdecoder : decoder.BlamesText) (hsink : sink.Accepts)
    {className : List Char} {fault : Fault}
    (h : (ofChars decoder sink className).outcome = .error fault) : fault.Structural :=
  (raised_of_ofChars hsink h).structural hdecoder

end SchemaTypes.CqlType
