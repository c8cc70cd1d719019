import SchemaTypes.Proofs.Bindings
import SchemaTypes.Proofs.ClassName.Recognition

/-!
# What scans capture

Whatever text a class name is, the arguments that are captured from it are units: a name, followed
by nothing or by one group. The blanks around a unit are dropped, and its parentheses balance. Named
units are captured under distinct names, also if a decoder gives one name for several texts.

A captured unit is a class name for the next level, which reads it again. The units are exactly the
texts that are then read as they are: the blanks inside their groups are kept, and there are none
elsewhere.

## Main definitions

* `Scan.ReadsAsItself`: texts that are read as they are, with arguments where their name ends.

## Main results

* `Scan.isUnit_of_unit`: a unit that is read is one.
* `Scan.isUnit_of_mem_arguments`, `Scan.isUnit_of_mem_namedUnits`: the units of lists.
* `Scan.nodup_names_of_namedUnits`: the names of named units.
* `Scan.readsAsItself_iff_isUnit`, `Scan.readsAsItself_of_captured`: units are read as they are, and
  so is whatever is captured.
-/

namespace SchemaTypes.ClassName

/-- A unit starts with no blank. -/
theorem IsUnit.isBlank_eq_false {u : List Char} (h : IsUnit u) :
    ∀ c ∈ u.head?, isBlank c = false := by
  simpa using head_unit h Stops.nil

/-- The text ends inside a list, or an argument of the list is malformed. -/
def Fault.InsideList (fault : Fault) : Prop :=
  ∃ f causes, fault = .malformed f causes ∧
    (f.reason = .textEnded ∨ ∃ position inner, f.reason = .inArgument position inner)

namespace Scan

variable {decoder : Decoder} {p q : Place} {u : List Char}

theorem isUnit_of_unit (h : unit p = .ok u q) : IsUnit u := by
  rw [← unit_skipBlanks] at h
  obtain ⟨g, hgroup, rfl⟩ := (unit_eq_ok_iff_group p.head_skipBlanks).1 h
  obtain ⟨blanks, rest, -, -, hg, -⟩ := group_eq_ok_iff.1 hgroup
  exact ⟨_, g, rfl, p.skipBlanks.longest_name.1, hg.imp_left And.left⟩

theorem isUnit_of_mem_arguments {us : List (List Char)} (h : arguments p = .ok us q)
    (hu : u ∈ us) : IsUnit u := by
  rcases list_of_opened h with rfl | ⟨r, hunits, -⟩
  · cases hu
  · obtain ⟨_, _, hargument, -⟩ := exists_of_mem_items hunits hu
    exact isUnit_of_unit (unit_of_argument hargument)

theorem isUnit_of_mem_namedUnits {bindings : Bindings (List Char)}
    (h : namedUnits decoder p = .ok bindings q) (hu : u ∈ bindings.values) : IsUnit u := by
  obtain ⟨pairs, hpairs, rfl⟩ := namedUnits_eq_ok_iff.1 h
  obtain ⟨pair, hpair, rfl⟩ := List.mem_map.1 hu
  obtain ⟨_, _, hnamed, -⟩ := exists_of_mem_items hpairs (Bindings.mem_of_mem_ofPairs hpair)
  obtain ⟨_, -, -, hunit⟩ := steps_of_namedUnit hnamed
  exact isUnit_of_unit hunit

theorem nodup_names_of_namedUnits {bindings : Bindings (List Char)}
    (h : namedUnits decoder p = .ok bindings q) : bindings.names.Nodup := by
  obtain ⟨pairs, -, rfl⟩ := namedUnits_eq_ok_iff.1 h
  exact Bindings.nodup_names_ofPairs pairs

/-- The units of named arguments, and their names. Where the text has ended there are none. -/
theorem captures_of_namedArguments {bindings : Bindings (List Char)}
    (h : namedArguments decoder p = .ok bindings q) :
    bindings.names.Nodup ∧ ∀ u ∈ bindings.values, IsUnit u := by
  rcases list_of_opened h with rfl | ⟨r, hunits, -⟩
  · exact ⟨List.nodup_nil, by simp [Bindings.values]⟩
  · exact ⟨nodup_names_of_namedUnits hunits, fun u hu => isUnit_of_mem_namedUnits hunits hu⟩

/-- Where a list is opened, or the text has ended, reading arguments fails only inside the list. -/
theorem insideList_of_arguments {fault : Fault}
    (hp : p.unread = [] ∨ p.unread.head? = some '(') (h : arguments p = .error fault q) :
    fault.InsideList := by
  have honward : Place.Onward fun _ => True := fun _ _ => trivial
  have hargument : Keeps (fun _ => True) (fun _ => Fault.InsideList) argument := by
    refine ⟨fun {p} hp => ?_⟩
    unfold KeepsAt
    rw [argument]
    cases hscan : unit p with
    | ok u q => exact trivial
    | error fault q =>
      obtain ⟨-, ⟨-⟩⟩ := ((keeps_unit honward).keepsAt hp).of_error hscan
      exact ⟨trivial, _, _, rfl, .inr ⟨_, _, rfl⟩⟩
  rw [arguments, opened_apply] at h
  obtain hend | hopen := hp
  · rw [hend] at h
    cases h
  · obtain ⟨rest, hrest⟩ := List.head?_eq_some_iff.1 hopen
    simp only [hrest, if_true] at h
    have hunits : Keeps (fun _ => True) (fun _ => Fault.InsideList) units :=
      keeps_items honward hargument fun _ => ⟨_, _, rfl, .inl rfl⟩
    exact ((hunits.keepsAt trivial).of_error h).2

/-- The text is read as it is. Its name ends with it or where a group starts, so that arguments may
be read there. -/
structure ReadsAsItself (u : List Char) : Prop where
  /-- From its start the whole text is read as a unit. -/
  unit_eq : unit (Place.start u) = .ok u ⟨u, u.length⟩
  /-- Behind its name the text ends or a list is opened. -/
  exists_name : ∃ start position, name (Place.start u) = .ok start ⟨u, position⟩ ∧
    (position = u.length ∨ u[position]? = some '(') ∧
    ∀ {fault q}, arguments ⟨u, position⟩ = .error fault q → fault.InsideList

/-- The texts that are read as they are, are the units. -/
theorem readsAsItself_iff_isUnit : ReadsAsItself u ↔ IsUnit u := by
  refine ⟨fun h => isUnit_of_unit h.unit_eq, fun hu => ⟨?_, ?_⟩⟩
  · have hread := reads_unit hu (Place.start u) [] (List.append_nil u).symm .nil
    rw [hread, Place.start, Place.advance, Nat.zero_add]
  · have hskip : (Place.start u).skipBlanks = Place.start u :=
      Place.skipBlanks_eq_self hu.isBlank_eq_false
    obtain ⟨start, group, rfl, hstart, hgroup⟩ := hu
    have hend := head_group hgroup .nil
    rw [List.append_nil] at hend
    -- The name ends where the group starts, or with the text.
    obtain ⟨hname, hafter⟩ := Place.afterName_of_append (p := .start (start ++ group)) rfl
      (longest_isName_iff.2 ⟨hstart, fun c hc => (hend c hc).1⟩)
    have hread : name (.start (start ++ group)) = .ok start ⟨start ++ group, start.length⟩ := by
      rw [name, hskip, hname, hafter, Place.start, Place.advance, Nat.zero_add]
    have hunread : (Place.mk (start ++ group) start.length).unread = group := List.drop_left
    refine ⟨start, start.length, hread, ?_, fun h => insideList_of_arguments ?_ h⟩
    · rw [List.getElem?_append_right (Nat.le_refl _), Nat.sub_self]
      rcases hgroup with rfl | ⟨inner, -, rfl⟩
      · exact .inl (by simp)
      · exact .inr rfl
    · rw [hunread]
      rcases hgroup with rfl | ⟨inner, -, rfl⟩
      · exact .inl rfl
      · exact .inr rfl

/-- Whatever is captured from a text is read as it is: a single unit, and each unit of a list. -/
theorem readsAsItself_of_captured (text : List Char) (start : Nat) (decoder : Decoder) :
    (∀ u q, unit ⟨text, start⟩ = .ok u q → ReadsAsItself u) ∧
    (∀ us q, arguments ⟨text, start⟩ = .ok us q → ∀ u ∈ us, ReadsAsItself u) ∧
    (∀ bindings q, namedUnits decoder ⟨text, start⟩ = .ok bindings q →
      ∀ u ∈ bindings.values, ReadsAsItself u) ∧
    ∀ bindings q, namedArguments decoder ⟨text, start⟩ = .ok bindings q →
      ∀ u ∈ bindings.values, ReadsAsItself u :=
  ⟨fun _ _ h => readsAsItself_iff_isUnit.2 (isUnit_of_unit h),
    fun _ _ h _ hu => readsAsItself_iff_isUnit.2 (isUnit_of_mem_arguments h hu),
    fun _ _ h _ hu => readsAsItself_iff_isUnit.2 (isUnit_of_mem_namedUnits h hu),
    fun _ _ h u hu => readsAsItself_iff_isUnit.2 ((captures_of_namedArguments h).2 u hu)⟩

/-- A unit is captured with the blanks inside its group, next to an empty name. -/
theorem readsAsItself_of_captured_blanks :
    arguments ⟨"T(a( b , c ),(d))".toList, 1⟩ =
      .ok ["a( b , c )".toList, "(d)".toList] ⟨"T(a( b , c ),(d))".toList, 17⟩ ∧
    ReadsAsItself "a( b , c )".toList ∧ ReadsAsItself "(d)".toList := by
  have hlong : IsGroup "( b , c )".toList := ⟨" b , c ".toList, .of_forall_ne (by simp), rfl⟩
  have hshort : IsGroup "(d)".toList := ⟨"d".toList, .of_forall_ne (by simp), rfl⟩
  have hread : arguments ⟨"T(a( b , c ),(d))".toList, 1⟩ =
      .ok ["a( b , c )".toList, "(d)".toList] ⟨"T(a( b , c ),(d))".toList, 17⟩ := by
    refine arguments_of_isUnit (List.forall_mem_cons.2 ⟨⟨?_, by decide⟩,
      List.forall_mem_singleton.2 ⟨?_, by decide⟩⟩) (show _ = listText _ ++ [] from rfl)
    · exact ⟨"a".toList, _, rfl, by decide, .inr hlong⟩
    · exact ⟨[], _, rfl, by decide, .inr hshort⟩
  have hcaptured := (readsAsItself_of_captured "T(a( b , c ),(d))".toList 1 .hexDump).2.1 _ _ hread
  exact ⟨hread, hcaptured _ (.head _), hcaptured _ (.tail _ (.head _))⟩

end Scan

end SchemaTypes.ClassName
