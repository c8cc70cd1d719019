import SchemaTypes.ClassName.Scan
import Mathlib.Data.List.Infix

/-!
# Balanced parentheses

A group ends where as many parentheses have been closed as opened. What stands between the
parentheses of a group is balanced, and a balanced text is passed as a whole when the end of a
group is looked for.

## Main definitions

* `Balanced`: texts in which each parenthesis has its counterpart.
* `IsGroup`: a balanced text in parentheses.

## Main results

* `closing?_append`, `closing?_eq_none_iff`: a front part in which the groups stay open is passed,
  and in no other text is the end of a group missing.
* `closing?_of_balanced`: a group is closed by its last character.
* `closing?_one_eq_some_iff`: what closes a group, and nothing else, is found.
-/

namespace SchemaTypes.ClassName

/-- Each parenthesis has its counterpart: as many are closed as are opened, and none is closed
before it is opened. -/
structure Balanced (text : List Char) : Prop where
  /-- As many are closed as are opened. -/
  count_eq : text.count ')' = text.count '('
  /-- None is closed before it is opened. -/
  count_le : ∀ {front : List Char}, front <+: text → front.count ')' ≤ front.count '('

/-- A balanced text in parentheses. -/
def IsGroup (group : List Char) : Prop :=
  ∃ inner, Balanced inner ∧ group = '(' :: (inner ++ [')'])

namespace Balanced

/-- A text without parentheses is balanced. -/
theorem of_forall_ne {text : List Char} (h : ∀ c ∈ text, c ≠ '(' ∧ c ≠ ')') : Balanced text where
  count_eq := by
    rw [List.count_eq_zero.2 fun hc => (h _ hc).2 rfl,
      List.count_eq_zero.2 fun hc => (h _ hc).1 rfl]
  count_le hfront := by
    rw [List.count_eq_zero.2 fun hc => (h _ (hfront.subset hc)).2 rfl]
    exact Nat.zero_le _

theorem nil : Balanced [] := of_forall_ne (by simp)

/-- Balanced texts may follow each other. -/
theorem append {first second : List Char} (hfirst : Balanced first) (hsecond : Balanced second) :
    Balanced (first ++ second) where
  count_eq := by
    simp only [List.count_append, hfirst.count_eq, hsecond.count_eq]
  count_le := by
    rintro front ⟨rest, hrest⟩
    -- The front part ends in the first text, or goes beyond it into the second.
    rcases List.append_eq_append_iff.1 hrest with ⟨left, rfl, -⟩ | ⟨left, rfl, hleft⟩
    · exact hfirst.count_le (List.prefix_append _ _)
    · have := hsecond.count_le ⟨rest, hleft.symm⟩
      have := hfirst.count_eq
      simp only [List.count_append]
      omega

/-- A balanced text stays balanced in parentheses. -/
theorem group {inner : List Char} (h : Balanced inner) : Balanced ('(' :: (inner ++ [')'])) where
  count_eq := by
    simp [List.count_append, h.count_eq]
  count_le := by
    intro front hfront
    cases front with
    | nil => simp
    | cons c front =>
      obtain ⟨rfl, htail⟩ := List.cons_prefix_cons.1 hfront
      -- The front part is the whole group, or it ends inside the parentheses.
      rcases List.prefix_concat_iff.1 htail with rfl | htail
      · simp [List.count_append, h.count_eq]
      · have := h.count_le htail
        simp
        omega

end Balanced

/-- How many groups are open after a character, as a sum. -/
theorem depthAfter_add_count {depth : Nat} (hdepth : 0 < depth) (c : Char) :
    depthAfter depth c + [c].count ')' = depth + [c].count '(' := by
  rw [depthAfter]
  split
  · next hopen => simp [hopen]
  · split
    · next hclose =>
      simp [hclose]
      omega
    · next hopen hclose => simp [hopen, hclose]

/-- A character at the front counts by itself. -/
theorem count_cons_eq_add (c d : Char) (text : List Char) :
    (c :: text).count d = [c].count d + text.count d := by
  rw [← List.singleton_append, List.count_append]

/-- A front part in which the groups stay open is passed. -/
theorem closing?_append {depth : Nat} {text : List Char}
    (h : ∀ front, front <+: text → front.count ')' < depth + front.count '(')
    (rest : List Char) :
    closing? depth (text ++ rest) =
      (closing? (depth + text.count '(' - text.count ')') rest).map (text ++ ·) := by
  induction text generalizing depth with
  | nil => simp
  | cons c text ih =>
    -- The empty front part says that a group is open, so that the next character is looked at.
    have hdepth : 0 < depth := by simpa using h [] List.nil_prefix
    have hafter := depthAfter_add_count hdepth c
    have htail : ∀ front, front <+: text →
        front.count ')' < depthAfter depth c + front.count '(' := by
      intro front hfront
      have := h (c :: front) (List.cons_prefix_cons.2 ⟨rfl, hfront⟩)
      rw [count_cons_eq_add c ')', count_cons_eq_add c '('] at this
      omega
    have hcount : depth + (c :: text).count '(' - (c :: text).count ')' =
        depthAfter depth c + text.count '(' - text.count ')' := by
      rw [count_cons_eq_add c ')', count_cons_eq_add c '(']
      omega
    -- One character is passed, and the rest of the text by induction.
    obtain ⟨depth, rfl⟩ := Nat.exists_eq_add_one_of_ne_zero hdepth.ne'
    rw [List.cons_append, closing?, ih htail, hcount, Option.map_map]
    rfl

/-- Nothing closes the groups of a text if and only if one of them stays open in each front
part. -/
theorem closing?_eq_none_iff {depth : Nat} {text : List Char} :
    closing? depth text = none ↔
      ∀ front, front <+: text → front.count ')' < depth + front.count '(' := by
  constructor
  · intro h
    fun_induction closing? depth text with
    | case1 => simp at h
    | case2 depth =>
      intro front hfront
      obtain rfl := List.prefix_nil.1 hfront
      simp
    | case3 depth c text ih =>
      have hafter := depthAfter_add_count (by omega : 0 < depth + 1) c
      rintro (_ | ⟨d, front⟩) hfront
      · simp
      · obtain ⟨rfl, htail⟩ := List.cons_prefix_cons.1 hfront
        have := ih (Option.map_eq_none_iff.1 h) front htail
        rw [count_cons_eq_add d ')', count_cons_eq_add d '(']
        omega
  · intro h
    have hopen := h text List.prefix_rfl
    obtain ⟨behind, hbehind⟩ :=
      Nat.exists_eq_add_one_of_ne_zero (by omega : depth + text.count '(' - text.count ')' ≠ 0)
    -- The whole text is passed, and at its end a group is still open.
    rw [← List.append_nil text, closing?_append h, hbehind]
    rfl

/-- A group is closed by its last character. -/
theorem closing?_of_balanced {inner : List Char} (h : Balanced inner) (rest : List Char) :
    closing? 1 (inner ++ ')' :: rest) = some (inner ++ [')']) := by
  -- The parenthesis of the group itself stays open until the text inside has been passed.
  have hopen : ∀ front, front <+: inner → front.count ')' < 1 + front.count '(' := by
    intro front hfront
    have := h.count_le hfront
    omega
  have hdepth : 1 + inner.count '(' - inner.count ')' = 1 := by
    have := h.count_eq
    omega
  rw [closing?_append hopen, hdepth]
  simp [closing?, depthAfter]

/-- The part that closes groups ends with a parenthesis, before which none of the groups around it
is closed. -/
theorem exists_of_closing? {depth : Nat} {text body : List Char}
    (h : closing? (depth + 1) text = some body) :
    ∃ inner, body = inner ++ [')'] ∧ inner.count ')' = inner.count '(' + depth ∧
      ∀ front, front <+: inner → front.count ')' ≤ front.count '(' + depth := by
  induction text generalizing depth body with
  | nil => simp [closing?] at h
  | cons c text ih =>
    rw [closing?] at h
    obtain ⟨tail, htail, rfl⟩ := Option.map_eq_some_iff.1 h
    have hafter := depthAfter_add_count (by omega : 0 < depth + 1) c
    by_cases hlast : depthAfter (depth + 1) c = 0
    · -- The character closes the last group that is open.
      rw [hlast, closing?, Option.some.injEq] at htail
      subst htail
      have hclose : c = ')' := by
        by_contra hne
        rw [List.count_eq_zero.2 (by simpa using Ne.symm hne)] at hafter
        omega
      subst hclose
      obtain rfl : depth = 0 := by simpa [depthAfter] using hlast
      exact ⟨[], rfl, rfl, by simp⟩
    · obtain ⟨behind, hbehind⟩ := Nat.exists_eq_add_one_of_ne_zero hlast
      rw [hbehind] at htail hafter
      obtain ⟨inner, rfl, htotal, hfronts⟩ := ih htail
      refine ⟨c :: inner, rfl, ?_, fun front hfront => ?_⟩
      · rw [count_cons_eq_add c ')', count_cons_eq_add c '(']
        omega
      · cases front with
        | nil => simp
        | cons d front =>
          obtain ⟨rfl, htailFront⟩ := List.cons_prefix_cons.1 hfront
          have := hfronts front htailFront
          rw [count_cons_eq_add d ')', count_cons_eq_add d '(']
          omega

/-- The part that closes one group makes a group of it, and is a front part of the text. -/
theorem closing?_one_eq_some_iff {text body : List Char} :
    closing? 1 text = some body ↔ IsGroup ('(' :: body) ∧ ∃ rest, text = body ++ rest := by
  constructor
  · intro h
    obtain ⟨inner, rfl, hcount, hfronts⟩ := exists_of_closing? h
    exact ⟨⟨inner, ⟨hcount, fun hfront => hfronts _ hfront⟩, rfl⟩,
      exists_eq_append_of_closing? h⟩
  · rintro ⟨⟨inner, hinner, hbody⟩, rest, rfl⟩
    obtain rfl := List.tail_eq_of_cons_eq hbody
    rw [List.append_assoc]
    exact closing?_of_balanced hinner rest

end SchemaTypes.ClassName
