import Mathlib.Algebra.GroupWithZero.Nat
import Mathlib.Data.List.Induction
import Mathlib.Data.List.Nodup
import Mathlib.Data.List.Perm.Subperm
import SchemaTypes.Bindings

/-!
# Names and values of bindings

Bindings are made by inserting pairs in turn. What is known about one insertion says what is known
about all of them: each name is bound once, at the place where it first came up, and stands for
what it was bound to last.

## Main results

* `Bindings.names_insert`, `Bindings.get?_insert`: what one insertion does.
* `Bindings.nodup_names_ofPairs`, `Bindings.names_ofPairs`: the names, in the order in which they
  first came up.
* `Bindings.get?_ofPairs`: what a name stands for in the end.
* `Bindings.sameMapping_iff_perm`, `Bindings.eq_of_perm`: what the order of the names does and does
  not tell.
* `Bindings.sum_ofPairs_le`: how much is bound.
* `Bindings.ofPairs_map`: pairs are bound alike under other names, if these stay apart.
-/

namespace SchemaTypes.Bindings

variable {α : Type}

theorem names_cons (pair : String × α) (bindings : Bindings α) :
    names (pair :: bindings) = pair.1 :: bindings.names := rfl

/-- Under other names, the same values are bound. -/
theorem names_map_fst (f : String → String) (bindings : Bindings α) :
    names (bindings.map (Prod.map f id)) = bindings.names.map f := by
  simp [names]

theorem values_map_fst (f : String → String) (bindings : Bindings α) :
    values (bindings.map (Prod.map f id)) = bindings.values := by
  simp [values]

/-- A name that is bound already stays where it is, and a new one comes last. -/
theorem names_insert (name : String) (value : α) (bindings : Bindings α) :
    (bindings.insert name value).names =
      if name ∈ bindings.names then bindings.names else bindings.names ++ [name] := by
  fun_induction insert name value bindings with
  | case1 => rfl
  | case2 old rest => rw [names_cons, names_cons, if_pos (.head _)]
  | case3 other old rest hother ih =>
    have hmem : name ∈ names ((other, old) :: rest) ↔ name ∈ names rest :=
      List.mem_cons.trans (or_iff_right (Ne.symm hother))
    rw [names_cons, ih]
    by_cases hbound : name ∈ names rest
    · rw [if_pos hbound, if_pos (hmem.2 hbound), names_cons]
    · rw [if_neg hbound, if_neg (mt hmem.1 hbound), names_cons, List.cons_append]

/-- The name that is inserted stands for the new value, and no other name changes. -/
theorem get?_insert (name : String) (value : α) (bindings : Bindings α) (other : String) :
    (bindings.insert name value).get? other =
      if name = other then some value else bindings.get? other := by
  fun_induction insert name value bindings with
  | case1 => rfl
  | case2 old rest =>
    rw [get?, get?]
    by_cases hother : name = other
    · rw [if_pos hother, if_pos hother]
    · rw [if_neg hother, if_neg hother, if_neg hother]
  | case3 bound old rest hbound ih =>
    rw [get?, get?, ih]
    by_cases hother : name = other
    · rw [if_pos hother, if_pos hother, if_neg (hother ▸ hbound)]
    · rw [if_neg hother, if_neg hother]

/-- The last pair is inserted last. -/
theorem ofPairs_concat (pairs : List (String × α)) (pair : String × α) :
    ofPairs (pairs ++ [pair]) = (ofPairs pairs).insert pair.1 pair.2 := by
  rw [ofPairs, List.foldl_append]
  rfl

/-- Each name is bound once. -/
theorem nodup_names_ofPairs (pairs : List (String × α)) : (ofPairs pairs).names.Nodup := by
  induction pairs using List.reverseRecOn with
  | nil => exact List.nodup_nil
  | append_singleton pairs pair ih =>
    rw [ofPairs_concat, names_insert]
    split
    · exact ih
    · next hnew =>
      refine List.nodup_append.2 ⟨ih, by simp, fun other hother last hlast => ?_⟩
      rintro rfl
      exact hnew (List.mem_singleton.1 hlast ▸ hother)

/-- The names stand in the order in which they first came up. -/
theorem names_ofPairs (pairs : List (String × α)) :
    (ofPairs pairs).names = (names pairs).eraseDups := by
  induction pairs using List.reverseRecOn with
  | nil => rfl
  | append_singleton pairs pair ih =>
    have hconcat : names (pairs ++ [pair]) = names pairs ++ [pair.1] := List.map_append
    rw [ofPairs_concat, names_insert, ih, hconcat, List.eraseDups_append, List.removeAll]
    by_cases hmem : pair.1 ∈ names pairs
    · rw [if_pos (List.mem_eraseDups.2 hmem)]
      simp [hmem]
    · rw [if_neg (mt List.mem_eraseDups.1 hmem)]
      simp [hmem, List.eraseDups_cons]

/-- A name stands for what it was bound to last. -/
theorem get?_ofPairs (pairs : List (String × α)) (name : String) :
    (ofPairs pairs).get? name = pairs.reverse.lookup name := by
  induction pairs using List.reverseRecOn with
  | nil => rfl
  | append_singleton pairs pair ih =>
    rw [ofPairs_concat, get?_insert, ih, List.reverse_concat, List.lookup_cons]
    by_cases hsame : pair.1 = name
    · rw [if_pos hsame, beq_iff_eq.2 hsame.symm]
    · rw [if_neg hsame, beq_false_of_ne (Ne.symm hsame)]

/-- If each name is bound once, it stands for what it is bound to. -/
theorem get?_eq_some_iff {bindings : Bindings α} (h : bindings.names.Nodup) {name : String}
    {value : α} : bindings.get? name = some value ↔ (name, value) ∈ bindings := by
  induction bindings with
  | nil => simp [get?]
  | cons pair rest ih =>
    obtain ⟨other, bound⟩ := pair
    obtain ⟨hnew, hrest⟩ := List.nodup_cons.1 h
    rw [get?, List.mem_cons, Prod.mk.injEq]
    by_cases hname : other = name
    · subst hname
      -- The name is bound here, so that no other pair has it.
      have hnone : (other, value) ∉ rest := fun hmem =>
        hnew (List.mem_map.2 ⟨_, hmem, rfl⟩)
      rw [if_pos rfl, Option.some.injEq, eq_self_iff_true, true_and, or_iff_left hnone, eq_comm]
    · rw [if_neg hname, ih hrest, or_iff_right fun hsame => hname hsame.1.symm]

/-- Bindings with distinct names agree as mappings if and only if they hold the same pairs, in
whatever order. -/
theorem sameMapping_iff_perm [DecidableEq α] {a b : Bindings α} (ha : a.names.Nodup)
    (hb : b.names.Nodup) : a.sameMapping b = true ↔ a.Perm b := by
  have hmapping : a.sameMapping b = true ↔ a.length = b.length ∧ a ⊆ b := by
    simp only [sameMapping, Bool.and_eq_true, beq_iff_eq, List.all_eq_true, get?_eq_some_iff hb,
      List.subset_def]
  rw [hmapping]
  constructor
  · rintro ⟨hlength, hsubset⟩
    have hnodup : List.Nodup a := List.Nodup.of_map _ ha
    exact (List.subperm_of_subset hnodup hsubset).perm_of_length_le (Nat.le_of_eq hlength.symm)
  · intro hperm
    exact ⟨hperm.length_eq, hperm.subset⟩

/-- The same pairs with distinct names stand in the same order if their names do. -/
theorem eq_of_perm {a b : Bindings α} (ha : a.names.Nodup) (hperm : a.Perm b)
    (hnames : a.names = b.names) : a = b := by
  refine List.ext_getElem hperm.length_eq fun i hi hj => ?_
  refine List.inj_on_of_nodup_map ha (List.getElem_mem hi)
    (hperm.mem_iff.2 (List.getElem_mem hj)) ?_
  -- The names at the position are the same.
  simpa [names, hi, hj] using congrArg (fun names => names[i]?) hnames

/-- Under other names, if these stay apart, a name is bound in the same place. -/
theorem insert_map {f : String → String} (hf : Function.Injective f) (name : String) (value : α)
    (bindings : Bindings α) :
    insert (f name) value (bindings.map (Prod.map f id)) =
      (bindings.insert name value).map (Prod.map f id) := by
  fun_induction insert name value bindings with
  | case1 => rfl
  | case2 old rest => exact if_pos rfl
  | case3 other old rest hother ih =>
    rw [List.map_cons, List.map_cons, ← ih]
    exact if_neg (mt (@hf _ _) hother)

/-- Under other names, if these stay apart, pairs are bound alike. -/
theorem ofPairs_map {f : String → String} (hf : Function.Injective f)
    (pairs : List (String × α)) :
    ofPairs (pairs.map (Prod.map f id)) = (ofPairs pairs).map (Prod.map f id) := by
  induction pairs using List.reverseRecOn with
  | nil => rfl
  | append_singleton pairs pair ih =>
    rw [List.map_append, List.map_singleton, ofPairs_concat, ofPairs_concat, ih]
    exact insert_map hf pair.1 pair.2 (ofPairs pairs)

/-- Binding one name adds no more than its value. -/
theorem sum_insert_le (size : α → Nat) (name : String) (value : α) (bindings : Bindings α) :
    ((bindings.insert name value).values.map size).sum ≤
      (bindings.values.map size).sum + size value := by
  induction bindings with
  | nil => simp [insert, values]
  | cons head rest ih =>
    rw [insert]
    simp only [values, List.map_cons, List.sum_cons] at ih ⊢
    split
    · simp only [List.map_cons, List.sum_cons]
      omega
    · simp only [List.map_cons, List.sum_cons]
      omega

/-- The values that are bound by pairs are no more than those of the pairs. -/
theorem sum_ofPairs_le (size : α → Nat) (pairs : List (String × α)) :
    ((ofPairs pairs).values.map size).sum ≤ (pairs.map fun pair => size pair.2).sum := by
  induction pairs using List.reverseRecOn with
  | nil => exact Nat.le_refl 0
  | append_singleton pairs pair ih =>
    have := sum_insert_le size pair.1 pair.2 (ofPairs pairs)
    rw [ofPairs_concat, List.map_append, List.sum_append, List.map_singleton, List.sum_singleton]
    omega

end SchemaTypes.Bindings
