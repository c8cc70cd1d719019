import SchemaTypes.Proofs.ClassName.Recognition

/-!
# Where lists end

A list ends at the parenthesis that closes it, and nothing behind this parenthesis is looked at:
with any other text there, the list is read with the same result. If the parenthesis is missing,
the list is malformed.

Only a group counts parentheses when it is read. That the whole list ends at the right one follows
from its form, in which everything before the last character is balanced.

## Main definitions

* `Closes`, `ClosesAt`: the texts and the positions that close parentheses for the first time.
* `Scan.EndsAt`: a scan that ends where parentheses are closed.

## Main results

* `ListForm.exists_balanced`: in front of its last character a list is balanced.
* `Scan.endsAt_lists`: where the lists of arguments end.
-/

namespace SchemaTypes.ClassName

/-- In the whole text `depth` more parentheses are closed than opened, and in no shorter front
part. -/
structure Closes (depth : Nat) (text : List Char) : Prop where
  ne_nil : text ≠ []
  /-- This many more are closed than opened. -/
  count_eq : text.count ')' = text.count '(' + depth
  /-- Nowhere before the end it is this many. -/
  count_ne : ∀ {front : List Char}, front <+: text → front ≠ [] → front ≠ text →
    front.count ')' ≠ front.count '(' + depth

/-- The first position of a text, from a start on, up to which `depth` more parentheses are closed
than opened. -/
structure ClosesAt (text : List Char) (start depth position : Nat) : Prop where
  le : start ≤ position
  lt : position < text.length
  /-- Up to the position this many more are closed than opened. -/
  count_eq : (text.extract start (position + 1)).count ')' =
    (text.extract start (position + 1)).count '(' + depth
  /-- Up to no earlier position it is this many. -/
  count_ne : ∀ k, start ≤ k → k < position →
    (text.extract start (k + 1)).count ')' ≠ (text.extract start (k + 1)).count '(' + depth

/-- A front part that closes parentheses does so at its last position. -/
theorem Closes.closesAt {text front rest : List Char} {start depth : Nat} (h : Closes depth front)
    (hdrop : text.drop start = front ++ rest) :
    ClosesAt text start depth (start + front.length - 1) := by
  have hpos : 0 < front.length := List.length_pos_iff.2 h.ne_nil
  have hlength := congrArg List.length hdrop
  rw [List.length_drop, List.length_append] at hlength
  -- What is extracted is a front part of the front part.
  have hextract (k : Nat) (hk : start ≤ k) (hle : k < start + front.length) :
      text.extract start (k + 1) = front.take (k + 1 - start) := by
    rw [List.extract_eq_take_drop, hdrop, List.take_append_of_le_length (by omega)]
  have hwhole : text.extract start (start + front.length - 1 + 1) = front := by
    rw [hextract _ (by omega) (by omega)]
    exact List.take_of_length_le (by omega)
  refine ⟨by omega, by omega, ?_, fun k hk hlt => ?_⟩
  · rw [hwhole]
    exact h.count_eq
  · rw [hextract k hk (by omega)]
    have hlen : (front.take (k + 1 - start)).length = k + 1 - start := by
      rw [List.length_take]
      omega
    apply h.count_ne (List.take_prefix _ _)
    · apply List.ne_nil_of_length_pos
      omega
    · intro heq
      rw [heq] at hlen
      omega

/-- The parenthesis behind a balanced text is the first one without a counterpart. -/
theorem Balanced.closes {inner : List Char} (h : Balanced inner) : Closes 1 (inner ++ [')']) where
  ne_nil := by simp
  count_eq := by
    simp [List.count_append, h.count_eq]
  count_ne := by
    intro front hfront _ hne
    have hfront := (List.prefix_concat_iff.1 hfront).resolve_left hne
    have := h.count_le hfront
    omega

/-- A group ends where its first parenthesis is closed. -/
theorem IsGroup.closes {group : List Char} (h : IsGroup group) : Closes 0 group where
  ne_nil := by
    obtain ⟨inner, -, rfl⟩ := h
    simp
  count_eq := h.balanced.count_eq
  count_ne := by
    obtain ⟨inner, hinner, rfl⟩ := h
    intro front hfront hnil hne
    obtain ⟨c, front, rfl⟩ := List.exists_cons_of_ne_nil hnil
    obtain ⟨rfl, htail⟩ := List.cons_prefix_cons.1 hfront
    have htail := (List.prefix_concat_iff.1 htail).resolve_left (by simpa using hne)
    -- The first parenthesis stays open in front of the last one.
    have := hinner.count_le htail
    simp only [List.count_cons_self, List.count_cons_of_ne (show '(' ≠ ')' by decide)]
    omega

theorem UnitForm.balanced {text rest u : List Char} (h : UnitForm text rest u) : Balanced text := by
  cases h with
  | alone hname hblanks _ => exact hname.1.balanced.append hblanks.balanced
  | withGroup hname hblanks hgroup =>
    exact hname.1.balanced.append (hblanks.balanced.append hgroup.balanced)

theorem NamedForm.balanced {decoder : Decoder} {text rest : List Char} {pair : String × List Char}
    (h : NamedForm decoder text rest pair) : Balanced text := by
  have hcolon : Balanced [':'] := .of_forall_ne (by simp)
  cases h with
  | mk hdump _ hblanks hblanks' _ hunit =>
    exact hdump.balanced.append
      (hblanks.balanced.append (hcolon.append (hblanks'.balanced.append hunit.balanced)))

variable {α : Type}

/-- In front of its last character a list is balanced, if its items are. -/
theorem ListForm.exists_balanced {Item : List Char → List Char → α → Prop}
    (hitem : ∀ {text rest a}, Item text rest a → Balanced text) {text : List Char} {as : List α}
    (h : ListForm Item text as) : ∃ inner, Balanced inner ∧ text = inner ++ [')'] := by
  induction h with
  | @close sep hsep => exact ⟨sep, hsep.1.balanced, rfl⟩
  | @item sep text _ _ _ hsep _ hform _ ih =>
    obtain ⟨inner, hinner, rfl⟩ := ih
    exact ⟨sep ++ (text ++ inner), hsep.1.balanced.append ((hitem hform).append hinner),
      by simp only [List.append_assoc]⟩

theorem Opened.isGroup {Form : List Char → α → Prop} {text : List Char} {a : α}
    (hform : ∀ {text a}, Form text a → ∃ inner, Balanced inner ∧ text = inner ++ [')'])
    (h : Opened Form text a) : IsGroup text := by
  obtain ⟨behind, rfl, hbehind⟩ := h
  obtain ⟨inner, hinner, rfl⟩ := hform hbehind
  exact ⟨inner, hinner, rfl⟩

namespace Scan

/-- From a start in a text the scan ends where `depth` more parentheses have been closed than
opened, with a result that does not depend on what follows. If this is nowhere, the text is
malformed. -/
structure EndsAt (scan : Scan α) (text : List Char) (start depth : Nat) : Prop where
  /-- The scan ends behind the parenthesis, and with another text behind it in the same way. -/
  of_ok : ∀ {a : α} {q : Place}, scan ⟨text, start⟩ = .ok a q →
    ∃ position, ClosesAt text start depth position ∧ q = ⟨text, position + 1⟩ ∧
      ∀ other, scan ⟨text.take (position + 1) ++ other, start⟩ =
        .ok a ⟨text.take (position + 1) ++ other, position + 1⟩
  /-- Without the parenthesis there is no result. -/
  of_none : (¬ ∃ position, ClosesAt text start depth position) →
    ∃ fault causes q, scan ⟨text, start⟩ = .error (.malformed fault causes) q

/-- A scan of texts that close parentheses ends where they are closed. That the texts are read may
depend on the first character. -/
theorem endsAt_of_closes {scan : Scan α} {text : List Char} {start depth : Nat}
    {Form : List Char → α → Prop}
    (hreads : ∀ {p q : Place} {a : α}, p.unread.head? = text[start]? → (scan p = .ok a q ↔
      ∃ front rest, p.unread = front ++ rest ∧ Form front a ∧ q = p.advance front.length))
    (hcloses : ∀ {front : List Char} {a : α}, Form front a → Closes depth front)
    (herror : ∀ {fault : Fault} {q : Place}, scan ⟨text, start⟩ = .error fault q →
      ∃ f causes, fault = .malformed f causes) : EndsAt scan text start depth := by
  have hhead : (Place.mk text start).unread.head? = text[start]? := List.head?_drop
  have hok {a : α} {q : Place} (h : scan ⟨text, start⟩ = .ok a q) :
      ∃ position, ClosesAt text start depth position ∧ q = ⟨text, position + 1⟩ ∧
        ∀ other, scan ⟨text.take (position + 1) ++ other, start⟩ =
          .ok a ⟨text.take (position + 1) ++ other, position + 1⟩ := by
    obtain ⟨front, rest, hunread, hform, rfl⟩ := (hreads hhead).1 h
    have hdrop : text.drop start = front ++ rest := hunread
    have hclosesAt := (hcloses hform).closesAt hdrop
    have hpos : 0 < front.length := List.length_pos_iff.2 (hcloses hform).ne_nil
    have hend : start + front.length - 1 + 1 = start + front.length := by omega
    refine ⟨_, hclosesAt, ?_, fun other => ?_⟩
    · rw [hend]
      rfl
    · -- What was passed is kept, so that the same front part is left at the start.
      have hlt : start < text.length := Nat.lt_of_le_of_lt hclosesAt.le hclosesAt.lt
      have hother : (text.take (start + front.length) ++ other).drop start = front ++ other := by
        rw [List.take_add, hdrop, List.take_left, List.append_assoc,
          List.drop_left' (by rw [List.length_take]; omega)]
      have hsame : (front ++ other).head? = text[start]? := by
        rw [← List.head?_drop, hdrop, List.head?_append_of_ne_nil _ (hcloses hform).ne_nil,
          List.head?_append_of_ne_nil _ (hcloses hform).ne_nil]
      rw [hend]
      refine (hreads ?_).2 ⟨front, other, hother, hform, rfl⟩
      rwa [Place.unread, hother]
  refine ⟨hok, fun hnone => ?_⟩
  cases hscan : scan ⟨text, start⟩ with
  | ok a q =>
    obtain ⟨position, hposition, -⟩ := hok hscan
    exact absurd ⟨position, hposition⟩ hnone
  | error fault q =>
    obtain ⟨f, causes, rfl⟩ := herror hscan
    exact ⟨f, causes, q, rfl⟩

/-- An opened list ends where its parenthesis is closed. -/
theorem endsAt_opened {list : Scan (List α)} {Form : List Char → List α → Prop}
    (hlist : Spans list Form)
    (hform : ∀ {text as}, Form text as → ∃ inner, Balanced inner ∧ text = inner ++ [')'])
    (hsafe : Safe list) {text : List Char} {start : Nat} (hopen : text[start]? = some '(') :
    EndsAt (opened list) text start 0 := by
  have hinside : (Place.mk text start).Inside := (List.getElem?_eq_some_iff.1 hopen).1.le
  refine endsAt_of_closes (fun hhead => opened_eq_ok_iff hlist (hhead.trans hopen))
    (fun h => (h.isGroup hform).closes) fun hscan => ?_
  obtain ⟨f, causes, rfl, -⟩ := ((safe_opened hsafe).safeAt hinside).structural hscan
  exact ⟨f, causes, rfl⟩

/-- Units bound to names are read as the pairs that the list of named units gives. -/
theorem spans_namedUnits (decoder : Decoder) :
    Spans (namedUnits decoder) fun text bindings =>
      ∃ pairs, ListForm (NamedForm decoder) text pairs ∧ bindings = .ofPairs pairs where
  eq_ok_iff {p q bindings} := by
    have hpairs : Spans (items (namedUnit decoder) (headway_namedUnit decoder))
        (ListForm (NamedForm decoder)) := spans_items (readsExactly_namedUnit decoder)
    rw [namedUnits_eq_ok_iff]
    constructor
    · rintro ⟨pairs, hscan, rfl⟩
      obtain ⟨front, rest, hunread, hform, rfl⟩ := hpairs.eq_ok_iff.1 hscan
      exact ⟨front, rest, hunread, ⟨pairs, hform, rfl⟩, rfl⟩
    · rintro ⟨front, rest, hunread, ⟨pairs, hform, rfl⟩, rfl⟩
      exact ⟨pairs, hpairs.eq_ok_iff.2 ⟨front, rest, hunread, hform, rfl⟩, rfl⟩

/-- Where the text has ended, a list does not. -/
theorem items_of_unread_eq_nil {item : Scan α} (headway : Headway item) {p : Place}
    (h : p.unread = []) : items item headway p = fail .textEnded p := by
  have hskip : p.skipSeparator = p := Place.skipSeparator_eq_self_iff.2 (by simp [h])
  rw [items_apply, hskip, h]

/-- A list of named units that is not read is malformed, also where the text has ended long
before. -/
theorem malformed_of_namedUnits {decoder : Decoder} (hdecoder : decoder.BlamesText) {p q : Place}
    {fault : Fault} (h : namedUnits decoder p = .error fault q) :
    ∃ f causes, fault = .malformed f causes := by
  by_cases hinside : p.Inside
  · obtain ⟨f, causes, rfl, -⟩ := ((safe_namedUnits hdecoder).safeAt hinside).structural h
    exact ⟨f, causes, rfl⟩
  · have hended : p.unread = [] := List.drop_eq_nil_of_le (Nat.le_of_not_le hinside)
    have hfail := items_of_unread_eq_nil (headway_namedUnit decoder) hended
    have herror := bind_of_eq_error hfail fun pairs => pure (Bindings.ofPairs pairs)
    cases h.symm.trans herror
    exact ⟨_, _, rfl⟩

/-- Lists of arguments end at the parenthesis that closes them and do not depend on what follows
it: lists that are read with the parenthesis that opens them, and a list of named units, which is
read from behind this parenthesis. -/
theorem endsAt_lists (text : List Char) (start : Nat) (decoder : Decoder)
    (hdecoder : decoder.BlamesText) :
    (text[start]? = some '(' →
      EndsAt arguments text start 0 ∧ EndsAt (namedArguments decoder) text start 0) ∧
    EndsAt (namedUnits decoder) text start 1 := by
  have hunits {text : List Char} {us : List (List Char)} (h : ListForm UnitForm text us) :
      ∃ inner, Balanced inner ∧ text = inner ++ [')'] :=
    h.exists_balanced UnitForm.balanced
  have hnamed {text : List Char} {bindings : Bindings (List Char)}
      (h : ∃ pairs, ListForm (NamedForm decoder) text pairs ∧ bindings = .ofPairs pairs) :
      ∃ inner, Balanced inner ∧ text = inner ++ [')'] := by
    obtain ⟨pairs, hform, -⟩ := h
    exact hform.exists_balanced NamedForm.balanced
  refine ⟨fun hopen => ⟨?_, ?_⟩, ?_⟩
  · exact endsAt_opened spans_units hunits (safe_items safe_argument) hopen
  · exact endsAt_opened (spans_namedUnits decoder) hnamed (safe_namedUnits hdecoder) hopen
  · refine endsAt_of_closes (fun _ => (spans_namedUnits decoder).eq_ok_iff) (fun h => ?_)
      (malformed_of_namedUnits hdecoder)
    obtain ⟨inner, hinner, rfl⟩ := hnamed h
    exact hinner.closes

/-- The list ends behind its second parenthesis whatever follows, and without this parenthesis the
named units behind the first one are malformed. -/
theorem endsAt_lists_nested :
    (arguments ⟨"T(a(b),c)d".toList, 1⟩ =
        .ok ["a(b)".toList, "c".toList] ⟨"T(a(b),c)d".toList, 9⟩ ∧
      ∀ other, arguments ⟨"T(a(b),c)".toList ++ other, 1⟩ =
        .ok ["a(b)".toList, "c".toList] ⟨"T(a(b),c)".toList ++ other, 9⟩) ∧
    ∃ fault causes q,
      namedUnits .hexDump ⟨"T(61:a(b)".toList, 2⟩ = .error (.malformed fault causes) q := by
  have hgroup : IsGroup "(b)".toList := ⟨"b".toList, .of_forall_ne (by simp), rfl⟩
  have hunits : ∀ u ∈ ["a(b)".toList, "c".toList], IsUnit u ∧ u ≠ [] := by
    rw [List.forall_mem_cons, List.forall_mem_singleton]
    exact ⟨⟨⟨"a".toList, _, rfl, by decide, .inr hgroup⟩, by decide⟩,
      isUnit_of_isName (by decide), by decide⟩
  have hread : arguments ⟨"T(a(b),c)d".toList, 1⟩ =
      .ok ["a(b)".toList, "c".toList] ⟨"T(a(b),c)d".toList, 9⟩ :=
    arguments_of_isUnit hunits (show _ = listText _ ++ "d".toList from rfl)
  have hends := ((endsAt_lists "T(a(b),c)d".toList 1 .hexDump blamesText_hexDump).1 rfl).1
  obtain ⟨position, -, hq, hother⟩ := hends.of_ok hread
  obtain rfl : 8 = position := Nat.succ.inj (congrArg Place.offset hq)
  refine ⟨⟨hread, hother⟩, ?_⟩
  apply (endsAt_lists "T(61:a(b)".toList 2 .hexDump blamesText_hexDump).2.of_none
  rintro ⟨position, hposition⟩
  have hall : ∀ k < 9, ("T(61:a(b)".toList.extract 2 (k + 1)).count ')' ≠
      ("T(61:a(b)".toList.extract 2 (k + 1)).count '(' + 1 := by decide
  exact hall position hposition.lt hposition.count_eq

end Scan

end SchemaTypes.ClassName
