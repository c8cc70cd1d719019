import SchemaTypes.Proofs.ClassName.Records
import SchemaTypes.Proofs.CqlType.Kinds

/-!
# Records of the unknown classes in a type

At each level the class name is logged if it is kept as an unknown class, before the parts are read.
So the log has one record for each unknown class in the type, in the order in which they stand
there.

## Main definitions

* `Layer.kept`: the class that is kept at a level.

## Main results

* `Layer.logs_ofClassName`, `Layer.logs_traverse`: the records of a level and of its parts.
* `logs_ofChars`: the records of a type.
-/

namespace SchemaTypes.CqlType

open ClassName

namespace Layer

variable {α β : Type} {decoder : Decoder} {sink : Sink} {className : List Char}

/-- The class that is kept at a level, which is none if the class is known. -/
def kept : Layer α → List String
  | .custom className => [className]
  | _ => []

theorem Rel.kept_eq {P : α → β → Prop} {layer : Layer α} {typed : Layer β}
    (h : Rel P layer typed) : typed.kept = layer.kept := by
  cases h <;> rfl

theorem debugLog_reportWrapper (wrapper : Wrapper) (head : Head) :
    (reportWrapper sink wrapper head).debugLog = [] := by
  rw [reportWrapper]
  split
  · cases sink <;> rfl
  · rfl

/-- An unknown class is logged with the text that is kept. -/
theorem debugLog_reportUnknown {frozen : Bool} {p : Place} {head : Head}
    {layer : Layer (List Char)}
    (h : ofArguments decoder frozen className p head = .ok layer) :
    (reportUnknown head className).debugLog = layer.kept.map .keptVerbatim := by
  obtain rfl := head_of_ofArguments h
  rw [reportUnknown]
  cases layer with
  | custom text =>
    rw [eq_ofList_of_ofArguments h]
    rfl
  | _ => rfl

/-- At a level the class that is kept is logged, and nothing else. -/
theorem logs_ofUnwrapped (wrapper : Wrapper) :
    Reading.Logs kept (ofUnwrapped decoder sink wrapper className) := by
  intro layer h
  rw [ofUnwrapped] at h ⊢
  obtain ⟨_, hwrapper, h⟩ := Reading.outcome_bind_eq_ok_iff.1 h
  obtain ⟨layer, hlayer, h⟩ := Reading.outcome_bind_eq_ok_iff.1 h
  obtain ⟨_, hunknown, h⟩ := Reading.outcome_bind_eq_ok_iff.1 h
  cases h
  rw [Reading.debugLog_bind hwrapper, Reading.debugLog_bind hlayer,
    Reading.debugLog_bind hunknown, debugLog_reportWrapper, debugLog_reportUnknown hlayer]
  exact List.append_nil _

theorem logs_ofClassName : Reading.Logs kept (ofClassName decoder sink className) :=
  .bind (.ofExcept _) (fun unwrapped _ => logs_ofUnwrapped unwrapped.1) fun _ _ _ _ => rfl

/-- The parts of a level are read with the records of each, from left to right. -/
theorem logs_traverse {f : β → List String} {layer : Layer α}
    {read : (a : α) → a ∈ layer.parts → Reading β} (h : ∀ a ha, Reading.Logs f (read a ha)) :
    Reading.Logs (fun typed => typed.parts.flatMap f) (layer.traverse read) := by
  cases layer with
  | native t =>
    intro typed htyped
    cases htyped
    rfl
  | custom className =>
    intro typed htyped
    cases htyped
    rfl
  | list frozen element => exact .map (h element _) fun b _ => List.flatMap_singleton f b
  | set frozen element => exact .map (h element _) fun b _ => List.flatMap_singleton f b
  | map frozen key value =>
    have hvalue (k : β) : Reading.Logs (fun typed => typed.parts.tail.flatMap f) (do
        let v ← read value (.tail _ (.head _))
        pure (map frozen k v)) :=
      .map (h value _) fun v _ => List.flatMap_singleton f v
    refine .bind (h key _) (fun k _ => hvalue k) fun k typed _ htyped => ?_
    obtain ⟨v, -, htyped⟩ := Reading.outcome_bind_eq_ok_iff.1 htyped
    cases htyped
    exact List.flatMap_cons
  | udt keyspace name fields =>
    -- The types are put to the names of their fields, which stay in order.
    refine .map (.each h) fun types htypes => ?_
    exact congrArg (List.flatMap f) (names_values_of_outcome_each htypes).2
  | tuple elements => exact .map (.each h) fun _ _ => rfl

end Layer

/-- The unknown classes in a type are what is kept at its root, and those in its parts. -/
theorem customs_ofLayer (typed : Layer CqlType) :
    (ofLayer typed).customs = typed.kept ++ typed.parts.flatMap customs := by
  rw [customs, fold_eq, parts_ofLayer]
  cases typed <;> rfl

/-- If a type is read, the log has one record for each unknown class in it. -/
theorem logs_ofChars (decoder : Decoder) (sink : Sink) (className : List Char) :
    Reading.Logs customs (ofChars decoder sink className) := by
  rw [ofChars_eq_bind]
  have hparts (layer : Layer (List Char))
      (hlayer : (Layer.ofClassName decoder sink className).outcome = .ok layer) :
      Reading.Logs (fun t => t.parts.flatMap customs) (do
        let types ← layer.traverse fun part _ => ofChars decoder sink part
        pure (ofLayer types)) := by
    -- The parts are shorter than the class name.
    have hread (part : List Char) (hpart : part ∈ layer.parts) :
        Reading.Logs customs (ofChars decoder sink part) :=
      logs_ofChars decoder sink part
    refine .map (Layer.logs_traverse hread) fun types _ => ?_
    rw [parts_ofLayer]
  refine .bind Layer.logs_ofClassName hparts fun layer t _ ht => ?_
  obtain ⟨typed, htyped, ht⟩ := Reading.outcome_bind_eq_ok_iff.1 ht
  cases ht
  rw [customs_ofLayer, parts_ofLayer, (Layer.rel_of_traverse htyped).kept_eq]
termination_by className.length
decreasing_by exact Layer.length_lt_of_mem_parts hlayer hpart

end SchemaTypes.CqlType
