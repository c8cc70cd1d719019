import SchemaTypes.Bindings
import SchemaTypes.ClassName.Items

/-!
# Lists of arguments

The arguments of a class are units, which are kept unread. In user-defined types and in blocks of
dynamic columns each unit has a name and a colon before it.

## Main definitions

* `Scan.opened`: a list behind the parenthesis that opens it.
* `Scan.units`, `Scan.arguments`: units up to the end of their list, and the whole list.
* `Scan.expectArguments`: a list of a certain length.
* `firstUnit`, `lastUnit`: single units of a list.
* `Scan.decodeName`: the name that a text stands for.
* `Scan.namedUnits`, `Scan.namedArguments`: units bound to names.

## Main results

* `Scan.length_lt_of_mem_arguments`, `Scan.length_lt_of_mem_namedArguments`: each unit of a list
  is shorter than the text of the list.
-/

namespace SchemaTypes.ClassName

/-- A fault inside an argument, reported at the place where it was met. Faults of collaborators
stay as they are. -/
def Fault.inArgument (p : Place) : Fault → Fault
  | .malformed fault causes =>
    .malformed (p.fault (.inArgument p.offset fault.reason)) (.malformed fault :: causes)
  | fault => fault

/-- The first unit of a list. -/
def firstUnit : List (List Char) → Except Fault (List Char)
  | [] => .error .noElement
  | first :: _ => .ok first

/-- The last unit of a list. -/
def lastUnit (us : List (List Char)) : Except Fault (List Char) :=
  match us.getLast? with
  | none => .error .noElement
  | some last => .ok last

namespace Scan

/-- Reads a unit as an argument: its faults are reported as faults inside an argument. -/
def argument : Scan (List Char) := fun p =>
  match unit p with
  | .ok u q => .ok u q
  | .error fault q => .error (fault.inArgument q) q

/-- An argument is the unit that stands there. -/
theorem unit_of_argument {p q : Place} {u : List Char} (h : argument p = .ok u q) :
    unit p = .ok u q := by
  rw [argument] at h
  split at h
  · next hunit => exact hunit.trans h
  · simp at h

/-- Arguments make headway. -/
theorem headway_argument : Headway argument where
  le h := by
    have := length_unit_le (unit_of_argument h)
    omega
  lt hunread hblank hcomma hclose h := by
    have hunit := unit_of_argument h
    have hlength := length_unit_le hunit
    have := List.length_pos_iff.2 (unit_ne_nil hunread hblank hcomma hclose hunit)
    omega

/-- Passes the parenthesis that opens a list and reads the list behind it. At the end of the text
there is nothing to read; any other character is a fault. -/
def opened {α : Type} (list : Scan (List α)) : Scan (List α) :=
  lookAhead (return []) fun c =>
    if c = '(' then do
      pass 1
      list
    else fail (.groupExpected c)

/-- What an opened list is, by the text at its place. -/
theorem opened_apply {α : Type} (list : Scan (List α)) (p : Place) :
    opened list p =
      match p.unread with
      | [] => .ok [] p
      | c :: _ => if c = '(' then list (p.advance 1) else fail (.groupExpected c) p := by
  rw [opened, lookAhead_apply]
  cases p.unread with
  | nil => rfl
  | cons c rest =>
    by_cases hopens : c = '('
    · simp only [if_pos hopens]
      rfl
    · simp only [if_neg hopens]

/-- An opened list is read behind its parenthesis. At the end of the text it has no elements. -/
theorem list_of_opened {α : Type} {list : Scan (List α)} {p q : Place} {as : List α}
    (h : opened list p = .ok as q) :
    as = [] ∨ ∃ r, list r = .ok as q ∧ p.unread = '(' :: r.unread := by
  rw [opened_apply] at h
  split at h
  · cases h
    exact .inl rfl
  · next c rest hunread =>
    split at h
    · next hopen =>
      subst hopen
      refine .inr ⟨_, h, ?_⟩
      rw [Place.unread_advance, hunread, List.drop_succ_cons, List.drop_zero]
    · simp [fail] at h

/-- Reads units up to and including the parenthesis that ends their list. -/
def units : Scan (List (List Char)) := items argument headway_argument

/-- Reads a list of arguments. At the end of the text there are none. -/
def arguments : Scan (List (List Char)) := opened units

/-- An argument is shorter than the text of its list. -/
theorem length_lt_of_mem_arguments {p q : Place} {us : List (List Char)}
    (h : arguments p = .ok us q) {u : List Char} (hu : u ∈ us) : u.length < p.unread.length := by
  rcases list_of_opened h with rfl | ⟨r, hitems, hopen⟩
  · simp at hu
  · obtain ⟨r', s, hunit, hlength⟩ := exists_of_mem_items hitems hu
    have := length_unit_le (unit_of_argument hunit)
    rw [hopen, List.length_cons]
    omega

/-- Reads the arguments of a class that takes a certain number of them. Any other number is a fault
behind the list. -/
def expectArguments (count : Nat) (reason : Nat → Reason) : Scan (List (List Char)) := do
  let units ← arguments
  if units.length = count then return units
  else fail (reason units.length)

/-- The expected arguments are arguments, and as many as expected. -/
theorem arguments_of_expectArguments {count : Nat} {reason : Nat → Reason} {p q : Place}
    {us : List (List Char)} (h : expectArguments count reason p = .ok us q) :
    arguments p = .ok us q ∧ us.length = count := by
  obtain ⟨us', q', harguments, h⟩ := bind_eq_ok_iff.1 h
  split at h
  · next hcount =>
    cases h
    exact ⟨harguments, hcount⟩
  · simp [fail] at h

/-- The name that a text stands for. If the decoder blames the text, that is a fault of the class
name at the present place; any other fault of the decoder stays as it is. -/
def decodeName (decoder : Decoder) (dump : List Char) : Scan String := fun p =>
  match decoder (String.ofList dump) with
  | .ok name => .ok name p
  | .error fault =>
    if fault.blamesText then
      .error
        (.malformed (p.fault (.undecodable (String.ofList dump) fault)) [.decoder fault]) p
    else .error (.decoder fault) p

/-- Decoding a name stays at its place. -/
theorem eq_of_decodeName {decoder : Decoder} {dump : List Char} {p q : Place} {name : String}
    (h : decodeName decoder dump p = .ok name q) : q = p := by
  rw [decodeName] at h
  split at h
  · cases h
    rfl
  · split at h <;> simp at h

/-- Reads the text of a name, a colon and a unit, with blanks around the colon. -/
def namedUnit (decoder : Decoder) : Scan (String × List Char) := do
  let dump ← identifier
  let name ← decodeName decoder dump
  mark ':' .colonExpected
  skipBlanks
  let u ← argument
  return (name, u)

/-- The steps in which a named unit is read. -/
theorem steps_of_namedUnit {decoder : Decoder} {p q : Place} {pair : String × List Char}
    (h : namedUnit decoder p = .ok pair q) :
    ∃ p₁, decodeName decoder p.name p.afterName = .ok pair.1 p.afterName ∧
      mark ':' .colonExpected p.afterName = .ok () p₁ ∧ unit p₁.skipBlanks = .ok pair.2 q := by
  simp only [namedUnit, bind_eq_ok_iff] at h
  obtain ⟨dump, p₁, hdump, name, p₂, hname, _, p₃, hmark, _, p₄, hblanks, u, p₅, hunit, hpair⟩ :=
    h
  cases hdump
  cases hblanks
  cases hpair
  -- Decoding stays at its place, so that the mark follows the dump.
  cases eq_of_decodeName hname
  exact ⟨p₃, hname, hmark, unit_of_argument hunit⟩

/-- A named unit leaves less text than there was, and its unit is no longer than what was
passed. -/
theorem length_namedUnit_lt {decoder : Decoder} {p q : Place} {pair : String × List Char}
    (h : namedUnit decoder p = .ok pair q) :
    pair.2.length + q.unread.length < p.unread.length := by
  obtain ⟨p₁, -, hmark, hunit⟩ := steps_of_namedUnit h
  have := p.length_afterName_le
  have := length_lt_of_mark hmark
  have := p₁.length_skipBlanks_le
  have := length_unit_le hunit
  omega

/-- Named units make headway. -/
theorem headway_namedUnit (decoder : Decoder) : Headway (namedUnit decoder) where
  le h := by
    have := length_namedUnit_lt h
    omega
  lt _ _ _ _ h := by
    have := length_namedUnit_lt h
    omega

/-- Reads named units up to and including the parenthesis that ends their list, and binds each
name to its unit. -/
def namedUnits (decoder : Decoder) : Scan (Bindings (List Char)) := do
  let pairs ← items (namedUnit decoder) (headway_namedUnit decoder)
  return .ofPairs pairs

/-- Named units are read as pairs, which are bound in their order. -/
theorem namedUnits_eq_ok_iff {decoder : Decoder} {p q : Place} {bindings : Bindings (List Char)} :
    namedUnits decoder p = .ok bindings q ↔ ∃ pairs,
      items (namedUnit decoder) (headway_namedUnit decoder) p = .ok pairs q ∧
        bindings = .ofPairs pairs := by
  constructor
  · intro h
    obtain ⟨pairs, r, hpairs, hbindings⟩ := bind_eq_ok_iff.1 h
    cases hbindings
    exact ⟨pairs, hpairs, rfl⟩
  · rintro ⟨pairs, hpairs, rfl⟩
    exact bind_eq_ok_iff.2 ⟨pairs, q, hpairs, rfl⟩

/-- The unit of a name is shorter than the text of its list. -/
theorem length_lt_of_mem_namedUnits {decoder : Decoder} {p q : Place}
    {bindings : Bindings (List Char)} (h : namedUnits decoder p = .ok bindings q)
    {u : List Char} (hu : u ∈ bindings.values) : u.length < p.unread.length := by
  obtain ⟨pairs, hpairs, rfl⟩ := namedUnits_eq_ok_iff.1 h
  obtain ⟨pair, hpair, rfl⟩ := List.mem_map.1 hu
  obtain ⟨r', s, hitem, hlength⟩ :=
    exists_of_mem_items hpairs (Bindings.mem_of_mem_ofPairs hpair)
  have := length_namedUnit_lt hitem
  omega

/-- Reads a list of named arguments. At the end of the text there are none. -/
def namedArguments (decoder : Decoder) : Scan (Bindings (List Char)) :=
  opened (namedUnits decoder)

/-- A named argument is shorter than the text of its list. -/
theorem length_lt_of_mem_namedArguments {decoder : Decoder} {p q : Place}
    {bindings : Bindings (List Char)} (h : namedArguments decoder p = .ok bindings q)
    {u : List Char} (hu : u ∈ bindings.values) : u.length < p.unread.length := by
  rcases list_of_opened h with rfl | ⟨r, hunits, hopen⟩
  · simp [Bindings.values] at hu
  · rw [hopen, List.length_cons]
    exact Nat.lt_succ_of_lt (length_lt_of_mem_namedUnits hunits hu)

end Scan

end SchemaTypes.ClassName
