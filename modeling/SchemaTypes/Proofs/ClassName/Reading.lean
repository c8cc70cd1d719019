import Mathlib.Data.List.Forall2
import SchemaTypes.ClassName.Reading

/-!
# Outcomes of readings

The outcome of a sequence of readings follows from the outcomes of its steps, whatever they
report on the way.

## Main definitions

* `Sink.Accepts`: the sink takes, drops or logs what it is told.

## Main results

* `Reading.outcome_bind_of_ok`, `Reading.outcome_bind_eq_error_iff`: the outcome of a sequence.
* `Reading.outcome_each_map`, `Reading.exists_of_outcome_each`: the outcome of reading each
  element of a list.
* `Reading.bind_of_eq`, `Reading.each_map_of_eq`: the same with the events.
* `Reading.map_eq`, `Reading.each_map`: functions of what is read.
-/

namespace SchemaTypes.ClassName

/-- The sink refuses nothing. -/
def Sink.Accepts (sink : Sink) : Prop := ∀ complaint, sink ≠ .refuse complaint

theorem Sink.accepts_collect : Sink.collect.Accepts := by simp [Accepts]

theorem Sink.accepts_log : Sink.log.Accepts := by simp [Accepts]

namespace Reading

variable {α β γ : Type}

theorem outcome_bind_of_ok {reading : Reading α} {a : α} (h : reading.outcome = .ok a)
    (next : α → Reading β) : (reading >>= next).outcome = (next a).outcome := by
  change (andThen reading next).outcome = _
  rw [andThen, h]

/-- A sequence fails with the fault of the step that fails. -/
theorem outcome_bind_eq_error_iff {reading : Reading α} {next : α → Reading β} {fault : Fault} :
    (reading >>= next).outcome = .error fault ↔
      reading.outcome = .error fault ∨
        ∃ a, reading.outcome = .ok a ∧ (next a).outcome = .error fault := by
  change (andThen reading next).outcome = _ ↔ _
  rw [andThen]
  cases reading.outcome <;> simp

theorem bind_assoc (reading : Reading α) (next : α → Reading β) (last : β → Reading γ) :
    (reading >>= next) >>= last = reading >>= fun a => next a >>= last := by
  change andThen (andThen reading next) last = andThen reading fun a => andThen (next a) last
  obtain ⟨events, fault | a⟩ := reading
  · rfl
  · simp only [andThen]
    cases (next a).outcome with
    | error fault => rfl
    | ok b => simp only [List.append_assoc]

theorem pure_bind (a : α) (next : α → Reading β) : pure a >>= next = next a := by
  change andThen (ofExcept (.ok a)) next = next a
  rfl

/-- What a second step reports comes after the events of the first one. -/
theorem bind_of_eq {reading : Reading α} {events : List Event} {a : α}
    (h : reading = ⟨events, .ok a⟩) (next : α → Reading β) :
    reading >>= next = ⟨events ++ (next a).events, (next a).outcome⟩ := by
  subst h
  rfl

/-- Only what follows the value that was read counts. -/
theorem bind_congr {reading : Reading α} {next next' : α → Reading β}
    (h : ∀ a, reading.outcome = .ok a → next a = next' a) :
    reading >>= next = reading >>= next' := by
  change andThen reading next = andThen reading next'
  obtain ⟨events, fault | a⟩ := reading
  · rfl
  · simp only [andThen, h a rfl]

/-- A last step that reports nothing changes the value. -/
theorem bind_pure_eq_map (reading : Reading α) (f : α → β) :
    (do let a ← reading; pure (f a)) = ⟨reading.events, reading.outcome.map f⟩ := by
  change andThen reading (fun a => ofExcept (.ok (f a))) = _
  obtain ⟨events, fault | a⟩ := reading
  · rfl
  · simp only [andThen, ofExcept, List.append_nil]
    rfl

/-- A function of the value leaves the events and the faults as they are. -/
theorem map_eq (f : α → β) (reading : Reading α) :
    f <$> reading = ⟨reading.events, reading.outcome.map f⟩ :=
  bind_pure_eq_map reading f

theorem map_id_eq (reading : Reading α) : id <$> reading = reading := by
  rw [map_eq]
  obtain ⟨events, fault | a⟩ := reading
  · rfl
  · rfl

instance : LawfulMonad Reading := .mk' _ map_id_eq pure_bind bind_assoc

/-- A function of each element is a function of the list that is read. -/
theorem each_map (f : β → γ) (as : List α) (read : (a : α) → a ∈ as → Reading β) :
    (each as fun a ha => f <$> read a ha) = List.map f <$> each as read := by
  induction as with
  | nil => rfl
  | cons a as ih =>
    simp only [each, ih, bind_map_left, map_bind, map_pure, List.map_cons]

theorem each_congr {as : List α} {read read' : (a : α) → a ∈ as → Reading β}
    (h : ∀ a ha, read a ha = read' a ha) : each as read = each as read' := by
  have hread : read = read' := by
    funext a ha
    exact h a ha
  rw [hread]

/-- Each element of a list is read, if the texts of all elements can be read. -/
theorem outcome_each_map {f : α → γ} {g : α → β} (read : β → Reading γ) {as : List α}
    {bs : List β} (hbs : bs = as.map g) (h : ∀ a ∈ as, (read (g a)).outcome = .ok (f a)) :
    (each bs fun b _ => read b).outcome = .ok (as.map f) := by
  subst hbs
  induction as with
  | nil => rfl
  | cons a as ih =>
    -- By induction on the list: the first value, and behind it the values of the rest.
    have hfirst := h a (.head _)
    have hrest := ih fun a' ha' => h a' (.tail _ ha')
    rw [List.map_cons, each, outcome_bind_of_ok hfirst, outcome_bind_of_ok hrest]
    rfl

/-- The events of reading each element of a list are those of the elements, in their order. -/
theorem each_map_of_eq {f : α → γ} {g : α → β} {events : α → List Event} (read : β → Reading γ)
    {as : List α} {bs : List β} (hbs : bs = as.map g)
    (h : ∀ a ∈ as, read (g a) = ⟨events a, .ok (f a)⟩) :
    (each bs fun b _ => read b) = ⟨as.flatMap events, .ok (as.map f)⟩ := by
  subst hbs
  induction as with
  | nil => rfl
  | cons a as ih =>
    have hrest := ih fun a' ha' => h a' (.tail _ ha')
    rw [List.map_cons, each, bind_of_eq (h a (.head _)), bind_pure_eq_map, hrest]
    rfl

theorem each_map_congr {read : β → Reading γ} {f g : α → β} {as : List α}
    (h : ∀ a ∈ as, read (f a) = read (g a)) :
    (each (as.map f) fun b _ => read b) = each (as.map g) fun b _ => read b := by
  induction as with
  | nil => rfl
  | cons a as ih =>
    rw [List.map_cons, List.map_cons, each, each, h a (.head _),
      ih fun a' ha' => h a' (.tail _ ha')]

/-- The values are read one for one. -/
theorem forall₂_of_outcome_each {as : List α} {read : (a : α) → a ∈ as → Reading β} {bs : List β}
    (h : (each as read).outcome = .ok bs) :
    List.Forall₂ (fun a b => ∃ ha, (read a ha).outcome = .ok b) as bs := by
  induction as generalizing bs with
  | nil =>
    cases h
    exact .nil
  | cons a as ih =>
    obtain ⟨b, hb, h⟩ := outcome_bind_eq_ok_iff.1 h
    obtain ⟨bs', hrest, h⟩ := outcome_bind_eq_ok_iff.1 h
    cases h
    exact .cons ⟨_, hb⟩ ((ih hrest).imp fun _ _ ⟨ha, hread⟩ => ⟨.tail _ ha, hread⟩)

/-- As many values are read as there are elements. -/
theorem length_of_outcome_each {as : List α} {read : (a : α) → a ∈ as → Reading β} {bs : List β}
    (h : (each as read).outcome = .ok bs) : bs.length = as.length :=
  (forall₂_of_outcome_each h).length_eq.symm

/-- If reading the elements of a list fails, it fails at one of them. -/
theorem exists_of_outcome_each {as : List α} {read : (a : α) → a ∈ as → Reading β} {fault : Fault}
    (h : (each as read).outcome = .error fault) : ∃ a ha, (read a ha).outcome = .error fault := by
  induction as with
  | nil => simp [each] at h
  | cons a as ih =>
    rw [each, outcome_bind_eq_error_iff] at h
    rcases h with h | ⟨b, -, h⟩
    · exact ⟨a, .head _, h⟩
    · rcases outcome_bind_eq_error_iff.1 h with h | ⟨bs, -, h⟩
      · obtain ⟨a', ha', hread⟩ := ih h
        exact ⟨a', .tail _ ha', hread⟩
      · simp at h

end Reading

theorem Sink.Accepts.outcome_report {sink : Sink} (h : sink.Accepts) (diagnostic : Diagnostic) :
    (sink.report diagnostic).outcome = .ok () := by
  cases sink with
  | refuse complaint => exact absurd rfl (h complaint)
  | _ => rfl

end SchemaTypes.ClassName
