/-!
# Ordered bindings of names

A list of names with what each of them stands for, in the order in which the names first came
up. Binding a name again replaces what it stands for and leaves it in its place.

## Main definitions

* `Bindings.insert`, `Bindings.ofPairs`: binding one name, and the pairs of a list in turn.
* `Bindings.get?`: what a name stands for.
* `Bindings.sameMapping`: agreement as mappings, whatever the order.

## Main results

* `Bindings.ofPairs_of_nodup`: pairs with distinct names are bound as they stand.
-/

namespace SchemaTypes

/-- Names and what they stand for, in the order in which the names first came up. -/
abbrev Bindings (α : Type) := List (String × α)

namespace Bindings

variable {α : Type}

/-- Binds a name: in its place if it is bound already, and else at the end. -/
def insert (name : String) (value : α) : Bindings α → Bindings α
  | [] => [(name, value)]
  | (other, old) :: rest =>
    if other = name then (name, value) :: rest else (other, old) :: insert name value rest

/-- The bindings made by inserting pairs from left to right. -/
def ofPairs (pairs : List (String × α)) : Bindings α :=
  pairs.foldl (fun bindings pair => bindings.insert pair.1 pair.2) []

/-- The names in order. -/
def names (bindings : Bindings α) : List String :=
  bindings.map Prod.fst

/-- The values in the order of their names. -/
def values (bindings : Bindings α) : List α :=
  bindings.map Prod.snd

/-- Other values for the names keep the names. -/
theorem names_map {β : Type} (f : α → β) (bindings : Bindings α) :
    names (bindings.map fun pair => (pair.1, f pair.2)) = bindings.map Prod.fst := by
  simp [names]

theorem values_map {β : Type} (f : α → β) (bindings : Bindings α) :
    values (bindings.map fun pair => (pair.1, f pair.2)) =
      bindings.map fun pair => f pair.2 := by
  simp [values]

/-- What a name stands for. -/
def get? (name : String) : Bindings α → Option α
  | [] => none
  | (other, value) :: rest => if other = name then some value else get? name rest

/-- Inserting adds nothing but the new pair. -/
theorem mem_of_mem_insert {name : String} {value : α} {bindings : Bindings α}
    {pair : String × α} (h : pair ∈ bindings.insert name value) :
    pair = (name, value) ∨ pair ∈ bindings := by
  induction bindings with
  | nil => simpa [insert] using h
  | cons head rest ih =>
    simp only [insert] at h
    split at h
    · rcases List.mem_cons.1 h with h | h
      · exact .inl h
      · exact .inr (.tail _ h)
    · rcases List.mem_cons.1 h with h | h
      · exact .inr (h ▸ .head _)
      · exact (ih h).imp_right (.tail _)

/-- The bindings of pairs hold none but these pairs. -/
theorem mem_of_mem_ofPairs {pairs : List (String × α)} {pair : String × α}
    (h : pair ∈ ofPairs pairs) : pair ∈ pairs := by
  suffices ∀ bindings : Bindings α,
      pair ∈ pairs.foldl (fun bindings pair => bindings.insert pair.1 pair.2) bindings →
        pair ∈ bindings ∨ pair ∈ pairs by
    simpa using this [] h
  clear h
  induction pairs with
  | nil => simp
  | cons head rest ih =>
    intro bindings h
    rcases ih _ h with h | h
    · rcases mem_of_mem_insert h with h | h
      · exact .inr (h ▸ .head _)
      · exact .inl h
    · exact .inr (.tail _ h)

theorem insert_of_not_mem {name : String} {value : α} {bindings : Bindings α}
    (h : name ∉ bindings.names) : bindings.insert name value = bindings ++ [(name, value)] := by
  induction bindings with
  | nil => rfl
  | cons head rest ih =>
    rw [names, List.map_cons, List.mem_cons, not_or] at h
    obtain ⟨hhead, hrest⟩ := h
    rw [insert, if_neg (Ne.symm hhead), ih hrest]
    rfl

/-- Pairs with distinct names are bound as they stand. -/
theorem ofPairs_of_nodup {pairs : List (String × α)} (h : (names pairs).Nodup) :
    ofPairs pairs = pairs := by
  -- The bindings made so far are general in the induction.
  suffices ∀ bindings : Bindings α, (names (bindings ++ pairs)).Nodup →
      pairs.foldl (fun bindings pair => bindings.insert pair.1 pair.2) bindings =
        bindings ++ pairs from this [] h
  clear h
  induction pairs with
  | nil => simp
  | cons pair pairs ih =>
    intro bindings h
    rw [← List.singleton_append, ← List.append_assoc] at h ⊢
    -- The name is new, so that its pair is added at the end.
    have hnew : pair.1 ∉ bindings.names := by
      simp only [names, List.map_append, List.map_cons, List.map_nil, List.append_assoc] at h
      intro hmem
      exact (List.nodup_append.1 h).2.2 _ hmem _ (.head _) rfl
    rw [List.singleton_append, List.foldl_cons, insert_of_not_mem hnew]
    exact ih _ h

/-- The bindings hold the same number of names, and each name of the first stands for the same
in the second. -/
def sameMapping [DecidableEq α] (a b : Bindings α) : Bool :=
  a.length == b.length && a.all fun (name, value) => b.get? name == some value

end Bindings

end SchemaTypes
