import SchemaTypes.Proofs.ClassName.Reading

/-!
# Records of what is kept

A class that is not known is kept by its name, and this is logged. If a reading succeeds, its log
has one record for each class that is kept in the value. What is kept in the value of a sequence
comes from its steps, in their order, and so do the records.

## Main definitions

* `Reading.debugLog`: what is logged for debugging.
* `Reading.Logs`: the records of a reading are those of its value.

## Main results

* `Reading.Logs.bind`, `Reading.Logs.map`, `Reading.Logs.each`: sequences of readings.
-/

namespace SchemaTypes.ClassName.Reading

variable {α β : Type}

/-- What is logged for debugging, in order. -/
def debugLog (reading : Reading α) : List Event :=
  reading.events.filter fun event => event.level? = some .debug

/-- If the reading succeeds, one record is logged for each class that is kept in the value, in the
order of the classes, and nothing else is logged for debugging. -/
def Logs (kept : α → List String) (reading : Reading α) : Prop :=
  ∀ a, reading.outcome = .ok a → reading.debugLog = (kept a).map .keptVerbatim

theorem debugLog_bind {reading : Reading α} {a : α} (h : reading.outcome = .ok a)
    (next : α → Reading β) :
    (reading >>= next).debugLog = reading.debugLog ++ (next a).debugLog := by
  obtain ⟨events, outcome⟩ := reading
  obtain rfl : outcome = .ok a := h
  rw [bind_of_eq rfl, debugLog, List.filter_append]
  rfl

namespace Logs

/-- A step that reports nothing logs nothing. -/
theorem ofExcept (outcome : Except Fault α) : Logs (fun _ => []) (ofExcept outcome) :=
  fun _ _ => rfl

/-- The records of a sequence are those of its steps, if the classes that are kept in its value are
those of the values of the steps. -/
theorem bind {reading : Reading α} {next : α → Reading β} {first : α → List String}
    {rest : α → β → List String} {kept : β → List String} (hreading : Logs first reading)
    (hnext : ∀ a, reading.outcome = .ok a → Logs (rest a) (next a))
    (hkept : ∀ a b, reading.outcome = .ok a → (next a).outcome = .ok b →
      kept b = first a ++ rest a b) : Logs kept (reading >>= next) := by
  intro b h
  obtain ⟨a, ha, hb⟩ := outcome_bind_eq_ok_iff.1 h
  rw [debugLog_bind ha, hreading a ha, hnext a ha b hb, hkept a b ha hb, List.map_append]

/-- A last step that reports nothing keeps what has been kept. -/
theorem map {reading : Reading α} {f : α → β} {first : α → List String} {kept : β → List String}
    (hreading : Logs first reading) (hkept : ∀ a, reading.outcome = .ok a → kept (f a) = first a) :
    Logs kept (do let a ← reading; pure (f a)) := by
  refine bind hreading (fun a _ => ofExcept _) fun a b ha hb => ?_
  cases hb
  rw [hkept a ha, List.append_nil]

/-- The elements of a list are read with the records of each, in their order. -/
theorem each {kept : β → List String} {as : List α} {read : (a : α) → a ∈ as → Reading β}
    (h : ∀ a ha, Logs kept (read a ha)) :
    Logs (fun bs => bs.flatMap kept) (Reading.each as read) := by
  induction as with
  | nil =>
    intro bs hbs
    cases hbs
    rfl
  | cons a as ih =>
    -- The records of the first element come first, and those of the others by induction.
    have hrest := ih fun a' ha' => h a' (.tail _ ha')
    have hbehind (b : β) : Logs (fun bs => bs.tail.flatMap kept) (do
        let bs ← Reading.each as fun a' ha' => read a' (.tail a ha')
        pure (b :: bs)) :=
      map hrest fun _ _ => rfl
    refine bind (h a (.head _)) (fun b _ => hbehind b) fun b bs _ hbs => ?_
    obtain ⟨bs, -, hbs⟩ := outcome_bind_eq_ok_iff.1 hbs
    cases hbs
    exact List.flatMap_cons

end Logs

end SchemaTypes.ClassName.Reading
