import SchemaTypes.Proofs.ClassName.Reading

/-!
# Readings seen through a sink

A reading that reports all its diagnostics to a collecting sink tells what the same reading does
with any other sink. If they are ignored they are missing from the events, if they are logged
there is a warning in the place of each, and if they are refused the reading ends at the first one.

## Main definitions

* `Reading.through`: what becomes of a collecting reading with another sink.

## Main results

* `Event.message_toLog`: a warning has the wording of the diagnostic.
* `Reading.through_bind`: a sequence is seen through a sink step by step.
* `Reading.through_each`: so are the readings of the elements of a list.
-/

namespace SchemaTypes.ClassName

namespace Event

/-- The event is a diagnostic that the sink took. -/
def isDiagnosed : Event → Bool
  | .diagnosed _ => true
  | _ => false

/-- The event with a warning in the log in the place of a diagnostic. -/
def toLog : Event → Event
  | .diagnosed diagnostic => .warned diagnostic
  | event => event

/-- A warning has the wording of the diagnostic. -/
theorem message_toLog (event : Event) : event.toLog.message = event.message := by
  cases event <;> rfl

/-- In the log a diagnostic has the level of warnings. -/
theorem level?_toLog_diagnosed (diagnostic : Diagnostic) :
    (diagnosed diagnostic).toLog.level? = some .warning := rfl

end Event

namespace Reading

variable {α β : Type}

/-- What becomes of a reading with a collecting sink if the diagnostics go to another sink. Ending
at the first diagnostic, a reading has reported what came before it. -/
def through : Sink → Reading α → Reading α
  | .collect, reading => reading
  | .ignore, reading => ⟨reading.events.filter (!·.isDiagnosed), reading.outcome⟩
  | .log, reading => ⟨reading.events.map Event.toLog, reading.outcome⟩
  | .refuse complaint, reading =>
    if reading.events.any Event.isDiagnosed then
      ⟨reading.events.takeWhile (!·.isDiagnosed), .error (.refused complaint)⟩
    else reading

/-- A step that reports nothing is the same with every sink. -/
@[simp]
theorem through_ofExcept (sink : Sink) (outcome : Except Fault α) :
    (ofExcept outcome).through sink = ofExcept outcome := by
  cases sink <;> rfl

@[simp]
theorem through_pure (sink : Sink) (a : α) : (pure a : Reading α).through sink = pure a :=
  through_ofExcept sink (.ok a)

/-- An event that is no diagnostic is reported with every sink. -/
theorem through_note (sink : Sink) {event : Event} (h : event.isDiagnosed = false) :
    (note event).through sink = note event := by
  cases event with
  | diagnosed diagnostic => cases h
  | _ => cases sink <;> rfl

/-- A diagnostic that is reported to a collecting sink is reported to another one. -/
theorem through_report (sink : Sink) (diagnostic : Diagnostic) :
    (Sink.collect.report diagnostic).through sink = sink.report diagnostic := by
  cases sink <;> rfl

/-- A reading with a diagnostic ends there if the sink refuses it. -/
theorem through_refuse_of_any {complaint : String} {events : List Event}
    (h : events.any Event.isDiagnosed = true) (outcome : Except Fault α) :
    (⟨events, outcome⟩ : Reading α).through (.refuse complaint) =
      ⟨events.takeWhile (!·.isDiagnosed), .error (.refused complaint)⟩ :=
  if_pos h

/-- A reading without diagnostics is the same with a sink that refuses them. -/
theorem through_refuse_of_not_any {complaint : String} {events : List Event}
    (h : ¬events.any Event.isDiagnosed = true) (outcome : Except Fault α) :
    (⟨events, outcome⟩ : Reading α).through (.refuse complaint) = ⟨events, outcome⟩ :=
  if_neg h

/-- What follows a diagnostic does not count if the sink refuses it. -/
theorem through_refuse_append_of_any {complaint : String} {events : List Event}
    (h : events.any Event.isDiagnosed = true) (more : List Event) (outcome : Except Fault α) :
    (⟨events ++ more, outcome⟩ : Reading α).through (.refuse complaint) =
      ⟨events.takeWhile (!·.isDiagnosed), .error (.refused complaint)⟩ := by
  have htake : (events ++ more).takeWhile (!·.isDiagnosed) =
      events.takeWhile (!·.isDiagnosed) := by
    induction events with
    | nil => cases h
    | cons event events ih =>
      rw [List.cons_append, List.takeWhile_cons, List.takeWhile_cons]
      cases hevent : event.isDiagnosed with
      | true => rfl
      | false => rw [ih (by simpa [hevent] using h)]
  rw [through_refuse_of_any (by rw [List.any_append, h, Bool.true_or]), htake]

/-- Events other than diagnostics come before what is reported later. -/
theorem through_refuse_append_of_not_any {complaint : String} {events : List Event}
    (h : ¬events.any Event.isDiagnosed = true) (reading : Reading α) :
    (⟨events ++ reading.events, reading.outcome⟩ : Reading α).through (.refuse complaint) =
      ⟨events ++ (reading.through (.refuse complaint)).events,
        (reading.through (.refuse complaint)).outcome⟩ := by
  have hpass : ∀ event ∈ events, (!event.isDiagnosed) = true := by simpa using h
  have hany (more : List Event) : (events ++ more).any Event.isDiagnosed =
      more.any Event.isDiagnosed := by
    rw [List.any_append, Bool.eq_false_iff.2 h, Bool.false_or]
  obtain ⟨more, outcome⟩ := reading
  by_cases hmore : more.any Event.isDiagnosed = true
  · rw [through_refuse_of_any hmore, through_refuse_of_any ((hany more).trans hmore),
      List.takeWhile_append_of_pos hpass]
  · rw [through_refuse_of_not_any hmore, through_refuse_of_not_any ((hany more).symm ▸ hmore)]

/-- A sequence is seen through a sink step by step. -/
theorem through_bind (sink : Sink) (reading : Reading α) (next : α → Reading β) :
    (reading >>= next).through sink =
      reading.through sink >>= fun a => (next a).through sink := by
  change (andThen reading next).through sink =
    andThen (reading.through sink) fun a => (next a).through sink
  obtain ⟨events, outcome⟩ := reading
  cases sink with
  | collect => rfl
  | ignore => cases outcome <;> simp only [andThen, through, List.filter_append]
  | log => cases outcome <;> simp only [andThen, through, List.map_append]
  | refuse complaint =>
    by_cases h : events.any Event.isDiagnosed = true
    · -- The sequence ends at the first diagnostic of its first step, whatever the second one does.
      rw [through_refuse_of_any h]
      cases outcome with
      | error fault => exact through_refuse_of_any h _
      | ok a => exact through_refuse_append_of_any h _ _
    · -- Nothing is refused in the first step, so that the second one decides.
      rw [through_refuse_of_not_any h]
      cases outcome with
      | error fault => exact through_refuse_of_not_any h _
      | ok a => exact through_refuse_append_of_not_any h _

/-- The readings of the elements of a list are seen through a sink one by one. -/
theorem through_each (sink : Sink) (as : List α) (read : (a : α) → a ∈ as → Reading β) :
    (each as read).through sink = each as fun a ha => (read a ha).through sink := by
  induction as with
  | nil => exact through_pure sink []
  | cons a as ih => simp only [each, through_bind, through_pure, ih]

end Reading

end SchemaTypes.ClassName
