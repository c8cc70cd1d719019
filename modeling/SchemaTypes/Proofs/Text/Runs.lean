import Mathlib.Data.List.Basic

/-!
# Runs of characters show where they end

The longest run of characters of one kind at the front of a text ends where the next character is
of another kind, or where the text does.

## Main results

* `takeWhile_append_of_head`, `dropWhile_append_of_head`: where a run is split off.
* `append_inj_of_head`: a run and what follows it are told apart.
-/

namespace SchemaTypes.Text

variable {p : Char → Bool} {run rest : List Char}

/-- No character of the kind stands behind the longest run. -/
theorem head_dropWhile (p : Char → Bool) (text : List Char) :
    ∀ c ∈ (text.dropWhile p).head?, p c = false := by
  intro c hc
  have := List.head?_dropWhile_not p text
  simpa [Option.mem_def.1 hc] using this

/-- A run of characters is empty where the next one does not belong to it. -/
theorem takeWhile_eq_nil_of_head (h : ∀ c ∈ rest.head?, p c = false) : rest.takeWhile p = [] := by
  cases rest with
  | nil => rfl
  | cons c rest => exact List.takeWhile_cons_of_neg (by simp [h c rfl])

theorem dropWhile_eq_self_of_head (h : ∀ c ∈ rest.head?, p c = false) :
    rest.dropWhile p = rest := by
  have hwhole := List.takeWhile_append_dropWhile (p := p) (l := rest)
  rwa [takeWhile_eq_nil_of_head h, List.nil_append] at hwhole

/-- A run of characters ends where the next one does not belong to it. -/
theorem takeWhile_append_of_head (hrun : ∀ c ∈ run, p c = true)
    (hrest : ∀ c ∈ rest.head?, p c = false) : (run ++ rest).takeWhile p = run := by
  rw [List.takeWhile_append_of_pos hrun, takeWhile_eq_nil_of_head hrest, List.append_nil]

theorem dropWhile_append_of_head (hrun : ∀ c ∈ run, p c = true)
    (hrest : ∀ c ∈ rest.head?, p c = false) : (run ++ rest).dropWhile p = rest := by
  rw [List.dropWhile_append_of_pos hrun, dropWhile_eq_self_of_head hrest]

/-- A run of characters with a property and what follows it are told apart, if what follows does
not go on with such a character. -/
theorem append_inj_of_head {run' rest' : List Char} (hrun : ∀ c ∈ run, p c = true)
    (hrun' : ∀ c ∈ run', p c = true) (hrest : ∀ c ∈ rest.head?, p c = false)
    (hrest' : ∀ c ∈ rest'.head?, p c = false) (h : run ++ rest = run' ++ rest') :
    run = run' ∧ rest = rest' := by
  obtain rfl : run = run' := by
    rw [← takeWhile_append_of_head hrun hrest, h, takeWhile_append_of_head hrun' hrest']
  exact ⟨rfl, List.append_cancel_left h⟩

end SchemaTypes.Text
