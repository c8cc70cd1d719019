/-!
# CQL identifiers

An identifier is written bare if CQL reads it back unchanged, and else between double quotes
with every quote inside written twice.

## Main definitions

* `Identifier.isBare`: the names that need no quotes.
* `Identifier.quote`: the written form of a name.
-/

namespace SchemaTypes.Text.Identifier

/-- A lower-case letter of ASCII. -/
def isLower (c : Char) : Bool :=
  'a' ≤ c && c ≤ 'z'

/-- A digit of ASCII. -/
def isDigit (c : Char) : Bool :=
  '0' ≤ c && c ≤ '9'

/-- A character that may follow the first one of a bare identifier. -/
def isBareTail (c : Char) : Bool :=
  isLower c || isDigit c || c == '_'

/-- A lower-case letter, then lower-case letters, digits and underscores only. -/
def isBare : List Char → Bool
  | [] => false
  | c :: rest => isLower c && rest.all isBareTail

/-- Writes every double quote twice. -/
def doubleQuotes (name : List Char) : List Char :=
  name.flatMap fun c => if c = '"' then ['"', '"'] else [c]

/-- The written form of an identifier. -/
def quote (name : String) : String :=
  if isBare name.toList then name
  else "\"" ++ String.ofList (doubleQuotes name.toList) ++ "\""

end SchemaTypes.Text.Identifier
