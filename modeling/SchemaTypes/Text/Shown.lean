import SchemaTypes.Text.Graphic
import SchemaTypes.Text.Hex

/-!
# Texts shown in messages

A message that shows a text puts it between quotes and escapes what would not be seen or would
end the text early.

## Main definitions

* `Shown.quoted`: the shown form of a text.
-/

namespace SchemaTypes.Text.Shown

/-- The quotes around a text: single ones, unless it holds a single quote and no double one. -/
def quoteFor (text : List Char) : Char :=
  if text.contains '\x27' && !text.contains '"' then '"' else '\x27'

/-- The character leaves a mark, or is the plain space. -/
def isSeen (c : Char) : Bool :=
  c == ' ' || (isGraphic c && !isSpaceSeparator c)

/-- The last hexadecimal digits of a number, as many as asked for. -/
def hexNumeral : (width value : Nat) → List Char
  | 0, _ => []
  | width + 1, value => hexNumeral width (value / 16) ++ [Hex.digit (value % 16)]

/-- The escape of a character by its number: two digits after `x`, four after `u` or eight after
`U`, whichever is the first that is wide enough. -/
def numberEscape (c : Char) : List Char :=
  if c.toNat < 0x100 then '\\' :: 'x' :: hexNumeral 2 c.toNat
  else if c.toNat < 0x10000 then '\\' :: 'u' :: hexNumeral 4 c.toNat
  else '\\' :: 'U' :: hexNumeral 8 c.toNat

/-- One character between the given quotes: the quote and the backslash behind a backslash, tab,
newline and carriage return by their letter, any other character that is not seen by its
number. -/
def shownChar (quote c : Char) : List Char :=
  if c = quote ∨ c = '\\' then ['\\', c]
  else if c = '\t' then ['\\', 't']
  else if c = '\n' then ['\\', 'n']
  else if c = '\r' then ['\\', 'r']
  else if isSeen c then [c]
  else numberEscape c

/-- The shown form of a text. -/
def quoted (text : String) : String :=
  let quote := quoteFor text.toList
  String.ofList (quote :: text.toList.flatMap (shownChar quote) ++ [quote])

end SchemaTypes.Text.Shown
