import SchemaTypes.ClassName.Fault

/-!
# Places in a class name

Reading goes from left to right over a text and never back. A place is a text with the number
of characters that have been passed, and the characters that are left unread are its view: each
step passes a front part of them.

## Main definitions

* `isBlank`, `isIdentifierChar`: the two classes of characters that matter.
* `Place` with its view `Place.unread`.
* `Place.skipBlanks`, `Place.skipSeparator`, `Place.name`: the front parts that are passed.
-/

namespace SchemaTypes.ClassName

/-- Space, tab and newline. -/
def isBlank (c : Char) : Bool :=
  c == ' ' || c == '\t' || c == '\n'

/-- Letters and digits of ASCII, and five marks that occur in class names. -/
def isIdentifierChar (c : Char) : Bool :=
  ('0' ≤ c && c ≤ '9') || ('a' ≤ c && c ≤ 'z') || ('A' ≤ c && c ≤ 'Z') ||
    ['-', '+', '.', '_', '&'].contains c

/-- The separator at the front of a text: blanks with at most one comma among them, as many as
there are. The flag says that the comma has been met. -/
def separator (comma : Bool) : List Char → List Char
  | [] => []
  | c :: rest =>
    if isBlank c then c :: separator comma rest
    else if c = ',' ∧ comma = false then c :: separator true rest
    else []

/-- A text and how many of its characters have been passed, which may be more than it has. -/
structure Place where
  /-- The whole text. -/
  text : List Char
  /-- The number of characters passed. -/
  offset : Nat
  deriving DecidableEq, Repr

namespace Place

/-- The place before the first character. -/
def start (text : List Char) : Place := ⟨text, 0⟩

/-- The characters that are left. -/
def unread (p : Place) : List Char := p.text.drop p.offset

/-- Passes characters. -/
def advance (p : Place) (n : Nat) : Place := { p with offset := p.offset + n }

/-- The place after the last character. -/
def toEnd (p : Place) : Place := { p with offset := p.text.length }

/-- No character is left. -/
def atEnd (p : Place) : Bool := p.unread.isEmpty

/-- The next character. -/
def peek? (p : Place) : Option Char := p.unread.head?

/-- Passes all blanks. -/
def skipBlanks (p : Place) : Place := p.advance (p.unread.takeWhile isBlank).length

/-- Passes the longest separator: blanks with at most one comma among them. -/
def skipSeparator (p : Place) : Place := p.advance (separator false p.unread).length

/-- The longest run of identifier characters at a place, which may be empty. -/
def name (p : Place) : List Char := p.unread.takeWhile isIdentifierChar

/-- The place after the name. -/
def afterName (p : Place) : Place := p.advance p.name.length

/-- A reason reported at a place. -/
def fault (p : Place) (reason : Reason) : SyntaxFault :=
  ⟨String.ofList p.text, p.offset, reason⟩

/-- The text with the next character between brackets; nothing is between them at the end. -/
def shown (p : Place) : String :=
  String.ofList
    (p.text.take p.offset ++ '[' :: p.peek?.toList ++ ']' :: p.text.drop (p.offset + 1))

@[simp]
theorem text_advance (p : Place) (n : Nat) : (p.advance n).text = p.text := rfl

@[simp]
theorem unread_advance (p : Place) (n : Nat) : (p.advance n).unread = p.unread.drop n := by
  simp [advance, unread]

@[simp]
theorem unread_start (text : List Char) : (start text).unread = text := rfl

/-- Passing blanks leaves what follows the longest run of them. -/
theorem unread_skipBlanks (p : Place) : p.skipBlanks.unread = p.unread.dropWhile isBlank := by
  rw [skipBlanks, unread_advance]
  conv => lhs; rhs; rw [← List.takeWhile_append_dropWhile (p := isBlank) (l := p.unread)]
  exact List.drop_left

/-- Passing a name leaves what follows the longest run of identifier characters. -/
theorem unread_afterName (p : Place) :
    p.afterName.unread = p.unread.dropWhile isIdentifierChar := by
  rw [afterName, name, unread_advance]
  conv =>
    lhs; rhs; rw [← List.takeWhile_append_dropWhile (p := isIdentifierChar) (l := p.unread)]
  exact List.drop_left

/-- Nothing of a name is lost. -/
theorem name_append_unread (p : Place) : p.name ++ p.afterName.unread = p.unread := by
  rw [unread_afterName, name, List.takeWhile_append_dropWhile]

/-- Passing a character leaves less than there was. -/
theorem length_advance_lt (p : Place) {c : Char} {rest : List Char} (h : p.unread = c :: rest)
    (n : Nat) : (p.advance (n + 1)).unread.length < p.unread.length := by
  rw [unread_advance, h, List.drop_succ_cons, List.length_drop, List.length_cons]
  omega

/-- Passing blanks leaves no more than there was. -/
theorem length_skipBlanks_le (p : Place) : p.skipBlanks.unread.length ≤ p.unread.length := by
  rw [unread_skipBlanks]
  exact (List.dropWhile_sublist _).length_le

/-- Passing a separator leaves no more than there was. -/
theorem length_skipSeparator_le (p : Place) :
    p.skipSeparator.unread.length ≤ p.unread.length := by
  rw [skipSeparator, unread_advance]
  exact (List.drop_sublist _ _).length_le

/-- Passing a name leaves no more than there was. -/
theorem length_afterName_le (p : Place) : p.afterName.unread.length ≤ p.unread.length := by
  rw [unread_afterName]
  exact (List.dropWhile_sublist _).length_le

end Place

end SchemaTypes.ClassName
