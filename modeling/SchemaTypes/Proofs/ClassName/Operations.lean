import SchemaTypes.Proofs.ClassName.Faults

/-!
# Runs of operations

A caller may read a text piece by piece, by any operations in any order, and may go on from where a
fault was met. A run starts anywhere, also behind the end of the text. It never goes back, never
leaves the text and never changes it, and each fault is reported where the run stands after it.

## Main definitions

* `Place.Reaches`: what lies ahead of a place.
* `Operation` and `Operation.scan`: what a caller may do at a place.
* `Step`, `run`: the steps of a run, in which each operation starts where the one before it ended.
* `Step.GoesForwards`: what is known about each step.

## Main results

* `Operation.keeps_scan`: what one operation keeps.
* `goesForwards_run`: the steps of every run go forwards.
-/

namespace SchemaTypes.ClassName

namespace Place

variable {p q : Place}

/-- The second place lies ahead of the first in the same text, and at its end at most. Behind the
end there is nothing ahead. -/
structure Reaches (p q : Place) : Prop where
  text_eq : q.text = p.text
  offset_le : p.offset ≤ q.offset
  le_max : q.offset ≤ max p.text.length p.offset

theorem Reaches.refl (p : Place) : p.Reaches p :=
  ⟨rfl, Nat.le_refl _, Nat.le_max_right _ _⟩

/-- Characters that are left lie ahead. -/
theorem onward_reaches (p : Place) : Onward p.Reaches := by
  intro q n h hn
  obtain ⟨htext, hle, hmax⟩ := h
  rw [unread, List.length_drop, htext] at hn
  refine ⟨htext, ?_, ?_⟩
  · simp only [advance]
    omega
  · simp only [advance]
    omega

/-- Where the text has ended, there is nothing ahead. -/
theorem Reaches.offset_eq (h : p.Reaches q) (hended : p.text.length ≤ p.offset) :
    q.offset = p.offset := by
  have := h.offset_le
  have := h.le_max
  omega

end Place

/-- What an operation gives. -/
inductive Value
  | nothing
  | flag (flag : Bool)
  | text (text : List Char)
  | texts (texts : List (List Char))
  | bindings (bindings : Bindings (List Char))
  | name (name : String)
  deriving DecidableEq, Repr

/-- What a caller may do at a place. -/
inductive Operation
  | skipBlanks
  | skipSeparator
  | identifier
  | name
  | group
  | unit
  | arguments
  | namedArguments (decoder : Decoder)
  | namedUnits (decoder : Decoder)
  | decodeName (decoder : Decoder) (dump : List Char)

namespace Operation

/-- The scan that an operation runs. -/
def scan : Operation → Scan Value
  | skipBlanks => do
    Scan.skipBlanks
    return .nothing
  | skipSeparator => do return .flag (← Scan.skipSeparator)
  | identifier => do return .text (← Scan.identifier)
  | name => do return .text (← Scan.name)
  | group => do return .text (← Scan.group)
  | unit => do return .text (← Scan.unit)
  | arguments => do return .texts (← Scan.arguments)
  | namedArguments decoder => do return .bindings (← Scan.namedArguments decoder)
  | namedUnits decoder => do return .bindings (← Scan.namedUnits decoder)
  | decodeName decoder dump => do return .name (← Scan.decodeName decoder dump)

/-- The decoder that an operation calls. -/
def decoder? : Operation → Option Decoder
  | namedArguments decoder => some decoder
  | namedUnits decoder => some decoder
  | decodeName decoder _ => some decoder
  | _ => none

/-- The fault is one of the class name, at a place. -/
def FailsAt (p : Place) (fault : Fault) : Prop :=
  ∃ reason causes, fault = .malformed (p.fault reason) causes

variable {I : Place → Prop}

/-- An operation goes forwards, and fails where it stops. -/
theorem keeps_scan (hI : Place.Onward I) {op : Operation}
    (hop : ∀ decoder ∈ op.decoder?, decoder.BlamesText) : Scan.Keeps I FailsAt op.scan := by
  -- The faults of a scan with a decoder that objects to texts, and those of a scan without one.
  have hraised {α : Type} {scan : Scan α} {value : α → Value} {decoder : Decoder}
      (hdecoder : decoder.BlamesText) (h : Scan.Keeps I (Fault.RaisedAt decoder) scan) :
      Scan.Keeps I FailsAt (do return value (← scan)) :=
    (h.mono fun _ hfault => hfault.exists_malformed hdecoder).bind fun _ => Scan.keeps_pure _
  have hplain {α : Type} {scan : Scan α} {value : α → Value}
      (h : Scan.Keeps I Fault.PlainAt scan) : Scan.Keeps I FailsAt (do return value (← scan)) :=
    hraised blamesText_hexDump (h.mono fun _ => .plain)
  cases op with
  | skipBlanks => exact (Scan.keeps_skipBlanks hI).bind fun _ => Scan.keeps_pure _
  | skipSeparator => exact hplain (Scan.keeps_skipSeparator hI)
  | identifier => exact hplain (Scan.keeps_identifier hI)
  | name => exact hplain (Scan.keeps_name hI)
  | group => exact hplain (Scan.keeps_group hI)
  | unit => exact hplain (Scan.keeps_unit hI)
  | arguments => exact hraised blamesText_hexDump (Scan.keeps_arguments hI)
  | namedArguments decoder => exact hraised (hop _ rfl) (Scan.keeps_namedArguments hI)
  | namedUnits decoder => exact hraised (hop _ rfl) (Scan.keeps_namedUnits hI)
  | decodeName decoder dump => exact hraised (hop _ rfl) (Scan.keeps_decodeName decoder dump)

end Operation

/-- One step of a run. -/
structure Step where
  /-- What is done. -/
  operation : Operation
  /-- Where it starts. -/
  before : Place
  /-- How it ends. -/
  result : EStateM.Result Fault Place Value

namespace Step

/-- The step in which an operation is run at a place. -/
def of (op : Operation) (p : Place) : Step := ⟨op, p, op.scan p⟩

/-- Where the run stands after a step, whether a value was given or a fault was met. -/
def after (step : Step) : Place :=
  match step.result with
  | .ok _ q => q
  | .error _ q => q

/-- A step in reading a text goes forwards, inside the text unless it started behind its end. A
fault is one of the class name, at the position where the run stands. -/
structure GoesForwards (text : List Char) (step : Step) : Prop where
  text_eq : step.after.text = text
  offset_le : step.before.offset ≤ step.after.offset
  le_max : step.after.offset ≤ max text.length step.before.offset
  /-- At the end, and behind it, nothing is passed. -/
  offset_eq : text.length ≤ step.before.offset → step.after.offset = step.before.offset
  /-- No character is looked at where there is none. -/
  ne_pastEnd : ∀ q, step.result ≠ .error .pastEnd q
  fault_eq : ∀ {fault q}, step.result = .error fault q → ∃ reason causes,
    fault = .malformed ⟨String.ofList text, step.after.offset, reason⟩ causes

/-- Each operation is a step forwards. -/
theorem goesForwards_of {op : Operation} (hop : ∀ decoder ∈ op.decoder?, decoder.BlamesText)
    (p : Place) : (of op p).GoesForwards p.text := by
  have hkeeps := (Operation.keeps_scan p.onward_reaches hop).keepsAt (.refl p)
  have hafter : p.Reaches (of op p).after := by
    unfold after
    split
    · next hscan => exact hkeeps.of_ok hscan
    · next hscan => exact (hkeeps.of_error hscan).1
  have hfault {fault : Fault} {q : Place} (hscan : (of op p).result = .error fault q) :
      ∃ reason causes, fault =
        .malformed ⟨String.ofList p.text, (of op p).after.offset, reason⟩ causes := by
    have hq : (of op p).after = q := by rw [after, hscan]
    obtain ⟨reason, causes, rfl⟩ := (hkeeps.of_error hscan).2
    rw [hq] at hafter ⊢
    exact ⟨reason, causes, by rw [Place.fault, hafter.text_eq]⟩
  refine ⟨hafter.text_eq, hafter.offset_le, hafter.le_max, hafter.offset_eq, fun q hscan => ?_,
    hfault⟩
  obtain ⟨reason, causes, heq⟩ := hfault hscan
  cases heq

end Step

/-- The steps in which operations are run from a place, each from where the one before it ended,
also if it ended with a fault. -/
def run : List Operation → Place → List Step
  | [], _ => []
  | op :: ops, p => .of op p :: run ops (Step.of op p).after

/-- Each step of a run goes forwards in the text that the run started with. -/
theorem goesForwards_run (text : List Char) (start : Nat) (ops : List Operation)
    (hops : ∀ op ∈ ops, ∀ decoder ∈ op.decoder?, decoder.BlamesText) :
    ∀ step ∈ run ops ⟨text, start⟩, step.GoesForwards text := by
  induction ops generalizing start with
  | nil => simp [run]
  | cons op ops ih =>
    obtain ⟨hop, hrest⟩ := List.forall_mem_cons.1 hops
    have hstep := Step.goesForwards_of hop ⟨text, start⟩
    -- The run goes on in the same text.
    have hafter : (Step.of op ⟨text, start⟩).after =
        ⟨text, (Step.of op ⟨text, start⟩).after.offset⟩ :=
      congrArg (Place.mk · _) hstep.text_eq
    rw [run, hafter]
    exact List.forall_mem_cons.2 ⟨hstep, ih _ hrest⟩

/-- A run over two faults to the end of its text. -/
theorem goesForwards_run_over_faults :
    let steps := run [.name, .arguments, .namedUnits .hexDump, .unit] ⟨"f(a b".toList, 0⟩
    steps.map (fun step => step.after.offset) = [1, 4, 5, 5] ∧
      ∀ step ∈ steps, step.GoesForwards "f(a b".toList := by
  refine ⟨by decide +kernel, goesForwards_run _ 0 _ ?_⟩
  simp [Operation.decoder?, blamesText_hexDump]

end SchemaTypes.ClassName
