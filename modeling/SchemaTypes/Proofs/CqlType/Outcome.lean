import SchemaTypes.CqlType.OfClassName
import SchemaTypes.Proofs.ClassName.Reading

/-!
# Outcomes of reading a type

If the sink refuses nothing, what is reported on the way does not matter for the outcome: a type
is read from its wrapper, from the arguments of the class inside, and from the outcomes of its
parts.

## Main results

* `Layer.outcome_ofUnwrapped`: the outermost level of a class without its wrapper.
* `ofChars_eq_bind`: a type is read level by level.
* `outcome_ofChars`: the type of a class name with a given outermost level.
* `exists_of_outcome_ofChars`: where reading a type fails.
-/

namespace SchemaTypes.CqlType

open ClassName

namespace Layer

theorem outcome_reportWrapper {sink : Sink} (hsink : sink.Accepts) (wrapper : Wrapper)
    (head : Head) : (reportWrapper sink wrapper head).outcome = .ok () := by
  rw [reportWrapper]
  split
  · exact hsink.outcome_report _
  · rfl

theorem outcome_reportUnknown (head : Head) (className : List Char) :
    (reportUnknown head className).outcome = .ok () := by
  rw [reportUnknown]
  split <;> rfl

/-- The outermost level of a class without its wrapper depends on its name and its arguments. -/
theorem outcome_ofUnwrapped {decoder : Decoder} {sink : Sink} (hsink : sink.Accepts)
    (wrapper : Wrapper) (className : List Char) :
    (ofUnwrapped decoder sink wrapper className).outcome =
      ofArguments decoder (wrapper = .frozen) className (Place.start className).skipBlanks.afterName
        (Head.ofName (Place.start className).skipBlanks.name) := by
  rw [ofUnwrapped]
  -- Of the three steps only the middle one can fail.
  refine (Reading.outcome_bind_of_ok (outcome_reportWrapper hsink _ _) _).trans ?_
  cases hlayer : ofArguments decoder (wrapper = .frozen) className
      (Place.start className).skipBlanks.afterName
      (Head.ofName (Place.start className).skipBlanks.name) with
  | error fault => exact Reading.outcome_bind_eq_error_iff.2 (.inl rfl)
  | ok layer =>
    refine (Reading.outcome_bind_of_ok (Reading.outcome_ofExcept _) _).trans ?_
    exact Reading.outcome_bind_of_ok (outcome_reportUnknown _ _) _

/-- If reading the parts of a level fails, it fails at one of them. -/
theorem exists_of_outcome_traverse {α β : Type} {layer : Layer α}
    {read : (a : α) → a ∈ layer.parts → Reading β} {fault : Fault}
    (h : (layer.traverse read).outcome = .error fault) :
    ∃ a ha, (read a ha).outcome = .error fault := by
  -- The level is put together from what was read, which cannot fail.
  have hpure {γ : Type} {reading : Reading γ} {f : γ → Layer β}
      (hbind : (reading >>= fun c => pure (f c)).outcome = .error fault) :
      reading.outcome = .error fault := by
    rcases Reading.outcome_bind_eq_error_iff.1 hbind with h | ⟨_, -, h⟩
    · exact h
    · simp at h
  cases layer with
  | native t => simp [traverse] at h
  | custom className => simp [traverse] at h
  | list frozen element => exact ⟨_, _, hpure h⟩
  | set frozen element => exact ⟨_, _, hpure h⟩
  | map frozen key value =>
    rcases Reading.outcome_bind_eq_error_iff.1 h with h | ⟨_, -, h⟩
    · exact ⟨_, _, h⟩
    · exact ⟨_, _, hpure h⟩
  | udt keyspace name fields => exact Reading.exists_of_outcome_each (hpure h)
  | tuple elements => exact Reading.exists_of_outcome_each (hpure h)

end Layer

/-- The type of a class name is read level by level: the outermost level, and then its parts. -/
theorem ofChars_eq_bind (decoder : Decoder) (sink : Sink) (className : List Char) :
    ofChars decoder sink className = (do
      let layer ← Layer.ofClassName decoder sink className
      let types ← layer.traverse fun part _ => ofChars decoder sink part
      pure (ofLayer types)) := by
  rw [ofChars]
  split
  · next heq => rw [heq]; rfl
  · next heq => rw [heq, Reading.bind_congr fun _ _ => Reading.bind_pure_eq_map _ _]; rfl

/-- The type of a class name is its outermost level with the types of the parts. -/
theorem outcome_ofChars {decoder : Decoder} {sink : Sink} {className : List Char}
    {layer : Layer (List Char)}
    (h : (Layer.ofClassName decoder sink className).outcome = .ok layer) :
    (ofChars decoder sink className).outcome =
      (layer.traverse fun part _ => ofChars decoder sink part).outcome.map ofLayer := by
  rw [ofChars]
  split
  · next heq => simp [heq] at h
  · next heq =>
    rw [heq] at h
    cases h
    rfl

/-- Reading a type fails at its outermost level or in one of its parts. -/
theorem exists_of_outcome_ofChars {decoder : Decoder} {sink : Sink} {className : List Char}
    {fault : Fault} (h : (ofChars decoder sink className).outcome = .error fault) :
    (Layer.ofClassName decoder sink className).outcome = .error fault ∨
      ∃ part : List Char, part.length < className.length ∧
        (ofChars decoder sink part).outcome = .error fault := by
  rw [ofChars] at h
  split at h
  · next heq =>
    cases h
    exact .inl (congrArg Reading.outcome heq)
  · next layer heq =>
    cases htraverse : (layer.traverse fun part _ => ofChars decoder sink part).outcome with
    | ok types => simp [htraverse, Except.map] at h
    | error fault' =>
      have hfault : fault' = fault := by simpa [htraverse, Except.map] using h
      obtain ⟨part, hpart, hread⟩ := Layer.exists_of_outcome_traverse htraverse
      refine .inr ⟨part, ?_, hfault ▸ hread⟩
      exact Layer.length_lt_of_mem_parts (congrArg Reading.outcome heq) hpart

end SchemaTypes.CqlType
