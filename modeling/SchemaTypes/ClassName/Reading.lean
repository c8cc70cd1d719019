import SchemaTypes.ClassName.Fault

/-!
# Readings and what they report

Reading a class name may report diagnostics, which go to a sink that the caller has chosen, and
it logs each class that it does not know. What was reported up to a fault stays reported.

## Main definitions

* `Diagnostic`, `Event`: what is reported.
* `Sink`, with `Sink.report`: what becomes of a diagnostic.
* `Reading`: the events of a reading in order, and its outcome.
-/

namespace SchemaTypes.ClassName

/-- Something odd that does not keep a class name from being read. -/
inductive Diagnostic
  /-- The freezing wrapper stands around something other than a collection. -/
  | frozenNonCollection
  deriving DecidableEq, Repr

/-- The wording of a diagnostic. -/
def Diagnostic.message : Diagnostic → String
  | .frozenNonCollection =>
    "Got " ++ String.ofList frozenClass ++ " for something else than a collection, " ++
      "this driver version might be too old for your version of Scylla/Cassandra"

/-- The level of a record in the log. -/
inductive Level
  | debug
  | warning
  deriving DecidableEq, Repr

/-- The name of a level. -/
def Level.label : Level → String
  | .debug => "DEBUG"
  | .warning => "WARNING"

/-- What a reading reports. -/
inductive Event
  /-- A diagnostic that the sink took. -/
  | diagnosed (diagnostic : Diagnostic)
  /-- A diagnostic that went to the log. -/
  | warned (diagnostic : Diagnostic)
  /-- An unknown class that is kept as it was written. -/
  | keptVerbatim (className : String)
  deriving DecidableEq, Repr

namespace Event

/-- The level at which an event is logged; what the sink took is not in the log. -/
def level? : Event → Option Level
  | .diagnosed _ => none
  | .warned _ => some .warning
  | .keptVerbatim _ => some .debug

/-- The wording of an event. -/
def message : Event → String
  | .diagnosed diagnostic => diagnostic.message
  | .warned diagnostic => diagnostic.message
  | .keptVerbatim className =>
    "Unknown marshal class " ++ className ++ ", keeping it as a custom type"

end Event

/-- What becomes of diagnostics. -/
inductive Sink
  /-- They are taken. -/
  | collect
  /-- They are dropped. -/
  | ignore
  /-- They are logged as warnings. -/
  | log
  /-- They end the reading with a complaint. -/
  | refuse (complaint : String)
  deriving DecidableEq, Repr

/-- The events of a reading in order, and its outcome. -/
structure Reading (α : Type) where
  /-- What was reported before the reading ended. -/
  events : List Event
  /-- The value read, or the fault that ended the reading. -/
  outcome : Except Fault α

namespace Reading

variable {α β : Type}

/-- The outcome of a step that reports nothing. -/
def ofExcept (outcome : Except Fault α) : Reading α := ⟨[], outcome⟩

/-- A fault that ends the reading. -/
def fail (fault : Fault) : Reading α := ofExcept (.error fault)

/-- Reports an event. -/
def note (event : Event) : Reading Unit := ⟨[event], .ok ()⟩

/-- Goes on with the value read. The events of both steps are kept in order; after a fault there
is no second step. -/
def andThen (reading : Reading α) (next : α → Reading β) : Reading β :=
  match reading.outcome with
  | .error fault => ⟨reading.events, .error fault⟩
  | .ok a =>
    let following := next a
    ⟨reading.events ++ following.events, following.outcome⟩

instance : Monad Reading where
  pure a := ofExcept (.ok a)
  bind := andThen

/-- Reads each element of a list in turn. -/
def each : (as : List α) → ((a : α) → a ∈ as → Reading β) → Reading (List β)
  | [], _ => pure []
  | a :: as, read => do
    let b ← read a (.head as)
    let bs ← each as fun a' h => read a' (.tail a h)
    return b :: bs

/-- A sequence of two readings succeeds if and only if both do. -/
theorem outcome_bind_eq_ok_iff {reading : Reading α} {next : α → Reading β} {b : β} :
    (reading >>= next).outcome = .ok b ↔
      ∃ a, reading.outcome = .ok a ∧ (next a).outcome = .ok b := by
  change (andThen reading next).outcome = .ok b ↔ _
  rw [andThen]
  split <;> simp_all

@[simp]
theorem outcome_ofExcept (outcome : Except Fault α) : (ofExcept outcome).outcome = outcome := rfl

@[simp]
theorem outcome_pure (a : α) : (pure a : Reading α).outcome = .ok a := rfl

end Reading

/-- Reports a diagnostic to a sink. -/
def Sink.report (diagnostic : Diagnostic) : Sink → Reading Unit
  | .collect => .note (.diagnosed diagnostic)
  | .ignore => pure ()
  | .log => .note (.warned diagnostic)
  | .refuse complaint => .fail (.refused complaint)

end SchemaTypes.ClassName
