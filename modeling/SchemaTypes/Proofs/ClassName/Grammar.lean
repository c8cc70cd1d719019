import SchemaTypes.Proofs.ClassName.Arguments
import SchemaTypes.Proofs.ClassName.Words

/-!
# The grammar of lists of arguments

What stands between the parentheses of a class is described without reading it: an item is
preceded by the longest separator, a name is the longest run of identifier characters, and a
group ends where it is closed. Where an item ends depends on what follows it, but only on the next
character.

## Main definitions

* `Longest`: a front part of a text with a property, and the longest one.
* `UnitForm`, `NamedForm`: the texts of arguments, by what follows them.
* `ListForm`, `Opened`: the texts of lists.

## Main results

* `longest_isName_iff`, `longest_isSeparator_iff`: where the longest runs end.
* `UnitForm.congr_head`, `NamedForm.congr_head`: of what follows an item the next character counts.
-/

namespace SchemaTypes.ClassName

/-- Any number of blanks. -/
def IsBlanks (text : List Char) : Prop := ∀ c ∈ text, isBlank c = true

/-- The front part has a property, and no longer front part of the text has it. -/
def Longest (P : List Char → Prop) (front rest : List Char) : Prop :=
  P front ∧ ∀ longer, longer <+: front ++ rest → P longer → longer.length ≤ front.length

/-- If front parts inherit the property, the longest one ends where the next character breaks
it. -/
theorem longest_iff {P : List Char → Prop} (hP : ∀ {front rest : List Char}, P (front ++ rest) →
    P front) {front rest : List Char} :
    Longest P front rest ↔ P front ∧ ∀ c ∈ rest.head?, ¬ P (front ++ [c]) := by
  refine and_congr_right fun _ => ⟨fun h c hc hnext => ?_, fun h longer hlonger hlongerP => ?_⟩
  · obtain ⟨tail, rfl⟩ := List.head?_eq_some_iff.1 hc
    have hlength := h (front ++ [c]) ⟨tail, by simp⟩ hnext
    rw [List.length_append, List.length_singleton] at hlength
    omega
  · obtain ⟨left, hleft⟩ := hlonger
    rcases List.append_eq_append_iff.1 hleft with ⟨more, rfl, -⟩ | ⟨more, rfl, rfl⟩
    · simp
    -- What goes beyond the front part starts with the next character.
    · cases more with
      | nil => simp
      | cons c more =>
        have hnext : P ((front ++ [c]) ++ more) := by simpa using hlongerP
        exact absurd (hP hnext) (h c rfl)

theorem longest_isName_iff {name rest : List Char} :
    Longest IsName name rest ↔
      IsName name ∧ ∀ c ∈ rest.head?, isIdentifierChar c = false := by
  have hinherit : ∀ {front rest : List Char}, IsName (front ++ rest) → IsName front :=
    fun h c hc => h c (List.mem_append_left _ hc)
  rw [longest_iff hinherit]
  refine and_congr_right fun hname => forall₂_congr fun c _ => ?_
  rw [IsName, List.forall_mem_append, List.forall_mem_singleton, Bool.eq_false_iff]
  exact not_congr (and_iff_right hname)

/-- A name ends before blanks, if they are followed by no identifier character. -/
theorem longest_isName_of_isBlanks {name blanks rest : List Char} (hname : IsName name)
    (hblanks : IsBlanks blanks) (hrest : ∀ c ∈ rest.head?, isIdentifierChar c = false) :
    Longest IsName name (blanks ++ rest) := by
  refine longest_isName_iff.2 ⟨hname, fun c hc => ?_⟩
  cases blanks with
  | nil => exact hrest c hc
  | cons d blanks =>
    cases hc
    exact isIdentifierChar_eq_false_of_isBlank (hblanks _ (.head _))

theorem isSeparator_concat_iff {sep : List Char} {c : Char} (hsep : IsSeparator sep) :
    IsSeparator (sep ++ [c]) ↔ isBlank c = true ∨ c = ',' ∧ ',' ∉ sep := by
  have hnone : ',' ∉ sep ↔ sep.count ',' = 0 := List.count_eq_zero.symm
  rw [IsSeparator, List.forall_mem_append, List.forall_mem_singleton, List.count_append,
    and_iff_right hsep.1, hnone]
  by_cases hcomma : c = ','
  · subst hcomma
    have hblank : isBlank ',' = false := rfl
    simp only [List.count_singleton_self, or_true, true_and, hblank, Bool.false_eq_true, false_or]
    omega
  · have : [c].count ',' = 0 := List.count_eq_zero.2 (by simpa using Ne.symm hcomma)
    have := hsep.2
    simp only [hcomma, or_false, false_and]
    exact and_iff_left (by omega)

theorem longest_isSeparator_iff {sep rest : List Char} :
    Longest IsSeparator sep rest ↔
      IsSeparator sep ∧ ∀ c ∈ rest.head?, isBlank c = false ∧ (c = ',' → ',' ∈ sep) := by
  have hinherit : ∀ {front rest : List Char}, IsSeparator (front ++ rest) → IsSeparator front := by
    intro front rest h
    refine ⟨fun c hc => h.1 c (List.mem_append_left _ hc), ?_⟩
    have hcount := h.2
    rw [List.count_append] at hcount
    omega
  rw [longest_iff hinherit]
  refine and_congr_right fun hsep => forall₂_congr fun c _ => ?_
  rw [isSeparator_concat_iff hsep, not_or, Bool.not_eq_true, not_and, not_not]

instance (text : List Char) : Decidable (IsBlanks text) :=
  decidable_of_iff (text.all isBlank = true) List.all_eq_true

instance (sep : List Char) : Decidable (IsSeparator sep) :=
  decidable_of_iff (sep.all (fun c => isBlank c || c == ',') = true ∧ sep.count ',' ≤ 1)
    (by simp only [IsSeparator, List.all_eq_true, Bool.or_eq_true, beq_iff_eq])

instance (name rest : List Char) : Decidable (Longest IsName name rest) :=
  decidable_of_iff (IsName name ∧ rest.head?.all (fun c => !isIdentifierChar c) = true)
    (by simp only [longest_isName_iff, Option.all_eq_true, Bool.not_eq_true', Option.mem_def])

instance (sep rest : List Char) : Decidable (Longest IsSeparator sep rest) :=
  decidable_of_iff
    (IsSeparator sep ∧ rest.head?.all (fun c => !isBlank c && (c != ',' || sep.elem ',')) = true)
    (by simp [longest_isSeparator_iff, Option.all_eq_true, Option.mem_def, imp_iff_not_or])

/-- Of what follows a separator the next character counts. -/
theorem longest_isSeparator_congr {sep rest rest' : List Char} (hhead : rest'.head? = rest.head?)
    (h : Longest IsSeparator sep rest) : Longest IsSeparator sep rest' := by
  rw [longest_isSeparator_iff] at h ⊢
  rwa [hhead]

theorem IsBlanks.balanced {blanks : List Char} (h : IsBlanks blanks) : Balanced blanks := by
  refine .of_forall_ne fun c hc => ?_
  have hblank := h c hc
  constructor <;> rintro rfl <;> exact absurd hblank (by decide)

theorem IsSeparator.balanced {sep : List Char} (h : IsSeparator sep) : Balanced sep := by
  refine .of_forall_ne fun c hc => ?_
  rcases h.1 c hc with hblank | rfl
  · constructor <;> rintro rfl <;> exact absurd hblank (by decide)
  · decide

/-- The text of an argument, by what follows it: a name, and a group behind any number of blanks,
or no group where the list goes on. The blanks do not belong to the argument. -/
inductive UnitForm : List Char → List Char → List Char → Prop
  | alone {name blanks rest : List Char} : Longest IsName name (blanks ++ rest) →
      IsBlanks blanks → Stops rest → UnitForm (name ++ blanks) rest name
  | withGroup {name blanks group rest : List Char} :
      Longest IsName name (blanks ++ (group ++ rest)) → IsBlanks blanks → IsGroup group →
      UnitForm (name ++ (blanks ++ group)) rest (name ++ group)

variable {α : Type}

/-- The items of a list up to and including the parenthesis that ends it. -/
inductive ListForm (Item : List Char → List Char → α → Prop) : List Char → List α → Prop
  | close {sep : List Char} : Longest IsSeparator sep [')'] → ListForm Item (sep ++ [')']) []
  | item {sep text rest : List Char} {a : α} {as : List α} :
      Longest IsSeparator sep (text ++ rest) → (text ++ rest).head? ≠ some ')' →
      Item text rest a → ListForm Item rest as → ListForm Item (sep ++ (text ++ rest)) (a :: as)

/-- The text of a named argument: a text that the decoder takes for the name, a colon with any
number of blanks on both sides, and the argument. -/
inductive NamedForm (decoder : Decoder) : List Char → List Char → String × List Char → Prop
  | mk {dump blanks blanks' text rest u : List Char} {name : String} : IsName dump →
      decoder (String.ofList dump) = .ok name → IsBlanks blanks → IsBlanks blanks' →
      (∀ c ∈ (text ++ rest).head?, isBlank c = false) → UnitForm text rest u →
      NamedForm decoder (dump ++ (blanks ++ ':' :: (blanks' ++ text))) rest (name, u)

/-- A text behind the parenthesis that opens it. -/
def Opened (Form : List Char → α → Prop) (text : List Char) (a : α) : Prop :=
  ∃ behind, text = '(' :: behind ∧ Form behind a

theorem ListForm.ne_nil {Item : List Char → List Char → α → Prop} {text : List Char} {as : List α}
    (h : ListForm Item text as) : text ≠ [] := by
  induction h with
  | close => simp
  | item _ _ _ _ ih => simp [ih]

theorem Opened.ne_nil {Form : List Char → α → Prop} {text : List Char} {a : α}
    (h : Opened Form text a) : text ≠ [] := by
  obtain ⟨behind, rfl, -⟩ := h
  exact List.cons_ne_nil _ _

theorem UnitForm.congr_head {text rest rest' u : List Char} (h : UnitForm text rest u)
    (hhead : rest'.head? = rest.head?) : UnitForm text rest' u := by
  cases h with
  | alone hname hblanks hstops =>
    refine .alone ?_ hblanks ?_
    · rw [longest_isName_iff, List.head?_append] at hname ⊢
      rwa [hhead]
    · rwa [Stops, hhead]
  | withGroup hname hblanks hgroup =>
    refine .withGroup ?_ hblanks hgroup
    rw [longest_isName_iff, List.head?_append, List.head?_append] at hname ⊢
    rwa [hhead]

theorem NamedForm.congr_head {decoder : Decoder} {text rest rest' : List Char}
    {pair : String × List Char} (h : NamedForm decoder text rest pair)
    (hhead : rest'.head? = rest.head?) : NamedForm decoder text rest' pair := by
  cases h with
  | mk hdump hname hblanks hblanks' hhead' htext =>
    refine .mk hdump hname hblanks hblanks' ?_ (htext.congr_head hhead)
    rw [List.head?_append] at hhead' ⊢
    rwa [hhead]

/-- A named argument starts with its name, with a blank or with the colon. -/
theorem NamedForm.head_ne_comma {decoder : Decoder} {text rest : List Char}
    {pair : String × List Char} (h : NamedForm decoder text rest pair) (more : List Char) :
    (text ++ more).head? ≠ some ',' := by
  obtain @⟨dump, blanks, _, _, _, _, _, hdump, -, hblanks, -, -, -⟩ := h
  intro hhead
  cases dump with
  | cons c dump =>
    obtain rfl : c = ',' := Option.some.inj hhead
    exact absurd (hdump _ (.head _)) (by decide)
  | nil =>
    cases blanks with
    | cons c blanks =>
      obtain rfl : c = ',' := Option.some.inj hhead
      exact absurd (hblanks _ (.head _)) (by decide)
    | nil => exact absurd (Option.some.inj hhead) (by decide)

end SchemaTypes.ClassName
