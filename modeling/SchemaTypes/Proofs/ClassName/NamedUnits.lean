import SchemaTypes.Proofs.Bindings
import SchemaTypes.Proofs.ClassName.Extent
import SchemaTypes.Proofs.ClassName.Spacing

/-!
# Named units are bound in order

A list of named units is read as the bindings of its pairs, with any decoder, through any blanks
and whatever stands behind it. The texts in front of the colons and the units may be empty, and a
decoder may give the same name for several texts: the name is bound where it first comes up, to the
last of its units.

## Main definitions

* `Entry`: a named unit as it is written, with the name that a decoder gives.

## Main results

* `Entry.itemText`: an entry with blanks is an item of a list.
* `Scan.namedUnits_of_entries`: the bindings that are read.
-/

namespace SchemaTypes.ClassName

/-- A named unit as it is written: a text that a decoder takes for a name, and a unit. Both may be
empty. -/
structure Entry (decoder : Decoder) where
  /-- The text that stands for the name. -/
  dump : List Char
  /-- The name. -/
  name : String
  /-- What is bound to the name. -/
  unit : List Char
  isName : IsName dump
  decodes : decoder (String.ofList dump) = .ok name
  isUnit : IsUnit unit

namespace Entry

variable {decoder : Decoder}

/-- What an entry binds. -/
def pair (entry : Entry decoder) : String × List Char := (entry.name, entry.unit)

/-- The pieces between which blanks may stand. -/
def pieces (entry : Entry decoder) : List (List Char) := [entry.dump, [':'], entry.unit]

/-- A unit with blanks on both sides. Without a unit all of them stand in front. -/
theorem exists_unitForm {u before behind : List Char} (hu : IsUnit u) (hbefore : IsBlanks before)
    (hbehind : IsBlanks behind) :
    ∃ lead front left, before ++ (u ++ behind) = lead ++ (front ++ left) ∧ IsBlanks lead ∧
      IsBlanks left ∧ ∀ rest, Stops rest → UnitForm front (left ++ rest) u ∧
        ∀ c ∈ (front ++ (left ++ rest)).head?, isBlank c = false := by
  by_cases hnil : u = []
  · subst hnil
    refine ⟨before ++ behind, [], [], by simp, ?_, isBlanks_nil, fun rest hrest => ⟨?_, ?_⟩⟩
    · exact List.forall_mem_append.2 ⟨hbefore, hbehind⟩
    · have hlongest : Longest IsName [] ([] ++ rest) :=
        longest_isName_of_isBlanks (by simp [IsName]) isBlanks_nil hrest.isIdentifierChar_eq_false
      exact .alone hlongest isBlanks_nil hrest
    · exact hrest.isBlank_eq_false
  · have hspread : Spread (Phrase.word u hu hnil).pieces (u ++ (behind ++ [])) := .cons hbehind .nil
    obtain ⟨front, left, u', htext, hopens, hleft, hsame, hform⟩ := Phrase.exists_unitForm hspread
    obtain rfl : u' = u := hsame
    rw [List.append_nil] at htext
    exact ⟨before, front, left, by rw [htext], hbefore, hleft, fun rest hrest =>
      ⟨hform rest hrest, hopens.isBlank_eq_false _⟩⟩

/-- An entry with blanks between its pieces is an item of a list. -/
theorem itemText (entry : Entry decoder) {text : List Char} (h : Spread entry.pieces text) :
    ItemText (NamedForm decoder) text entry.pair := by
  obtain ⟨blanks, s, rfl, hblanks, hs⟩ := h.exists_of_cons
  obtain ⟨before, s, rfl, hbefore, hs⟩ := hs.exists_of_cons
  obtain ⟨behind, s, rfl, hbehind, hs⟩ := hs.exists_of_cons
  obtain rfl := hs.eq_nil
  obtain ⟨lead, front, left, htext, hlead, hleft, hform⟩ :=
    exists_unitForm entry.isUnit hbefore hbehind
  rw [List.append_nil, List.singleton_append, htext]
  exact itemText_named entry.isName entry.decodes hblanks hlead hleft hform

end Entry

namespace Scan

/-- Entries with commas between them, with blanks between all pieces, are read up to the parenthesis
that ends their list, as the bindings of their pairs: each name stands where it first comes up, for
the unit that it is bound to last. -/
theorem namedUnits_of_entries {decoder : Decoder} (entries : List (Entry decoder))
    {lead text rest : List Char} (hlead : IsBlanks lead)
    (htext : Spread ([[',']].intercalate (entries.map Entry.pieces)) text) {p : Place}
    (hunread : p.unread = lead ++ (text ++ ')' :: rest)) :
    let pairs := entries.map Entry.pair
    let bindings := Bindings.ofPairs pairs
    namedUnits decoder p = .ok bindings (p.advance (lead.length + text.length + 1)) ∧
      bindings.names = (Bindings.names pairs).eraseDups ∧
      ∀ name, bindings.get? name = pairs.reverse.lookup name := by
  intro pairs bindings
  refine ⟨?_, Bindings.names_ofPairs pairs, Bindings.get?_ofPairs pairs⟩
  -- The text is a list by the grammar, and lists are what is read.
  have hitem : ∀ entry ∈ entries, ∀ text, Spread entry.pieces text →
      ∃ u, u = entry.unit ∧ ItemText (NamedForm decoder) text (entry.name, u) :=
    fun entry _ text htext => ⟨entry.unit, rfl, entry.itemText htext⟩
  obtain ⟨read, hread, hunits, hlist⟩ := exists_listForm hitem htext
  have hpairs : read.map (fun part => (part.1.name, part.2)) = pairs := by
    show _ = entries.map Entry.pair
    rw [← hread, List.map_map]
    exact List.map_congr_left fun part hpart => Prod.ext rfl (hunits part hpart)
  have hform : ListForm (NamedForm decoder) (lead ++ (text ++ [')'])) pairs :=
    hpairs ▸ hlist lead hlead.isSeparator
  refine (spans_namedUnits decoder).eq_ok_iff.2
    ⟨lead ++ (text ++ [')']), rest, by simpa using hunread, ⟨pairs, hform, rfl⟩, ?_⟩
  simp [Nat.add_assoc]

/-- Two texts, the second one empty, stand for one name. It is bound to the last unit, which is
empty. -/
theorem namedUnits_of_entries_merged :
    let decoder : Decoder := fun _ => .ok "n"
    let text := " 61 : T(a ) ,  :  )tail".toList
    let bindings : Bindings (List Char) := [("n", [])]
    namedUnits decoder (.start text) = .ok bindings ⟨text, 19⟩ ∧
      bindings.names = ["n"] ∧ ∀ name, bindings.get? name =
        [("n", []), ("n", "T(a )".toList)].lookup name := by
  intro decoder text bindings
  have hgroup : IsGroup "(a )".toList := ⟨"a ".toList, .of_forall_ne (by simp), rfl⟩
  let entries : List (Entry decoder) :=
    [⟨"61".toList, "n", "T(a )".toList, by decide, rfl,
        ⟨"T".toList, _, rfl, by decide, .inr hgroup⟩⟩,
      ⟨[], "n", [], by decide, rfl, isUnit_of_isName (by decide)⟩]
  -- One blank stands behind each piece, and one in front.
  have hblank : IsBlanks [' '] := by decide
  have htext := Spread.of_isBlanks hblank ([[',']].intercalate (entries.map Entry.pieces))
  exact namedUnits_of_entries entries hblank htext
    (show (Place.start text).unread = [' '] ++ (_ ++ ')' :: "tail".toList) from rfl)

end Scan

end SchemaTypes.ClassName
