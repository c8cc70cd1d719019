import SchemaTypes.CqlType.Basic
import SchemaTypes.Text.Identifier

/-!
# Printing CQL types

The spelling of a type in CQL. A frozen collection or user-defined type stands inside
`frozen<...>`, a tuple always does, and an unknown class is put between single quotes as it is.

## Main definitions

* `CqlType.toCql`: the spelling of a type.
-/

namespace SchemaTypes.CqlType

/-- Puts a spelling inside `frozen<...>` if the type is frozen. -/
def frozenIf (frozen : Bool) (spelling : String) : String :=
  if frozen then "frozen<" ++ spelling ++ ">" else spelling

mutual

/-- The spelling of a type in CQL. -/
def toCql : CqlType → String
  | .native t => t.cqlName
  | .list frozen element => frozenIf frozen ("list<" ++ element.toCql ++ ">")
  | .set frozen element => frozenIf frozen ("set<" ++ element.toCql ++ ">")
  | .map frozen key value =>
    frozenIf frozen ("map<" ++ key.toCql ++ ", " ++ value.toCql ++ ">")
  | .udt frozen keyspace name _ =>
    frozenIf frozen (Text.Identifier.quote keyspace ++ "." ++ Text.Identifier.quote name)
  | .tuple elements => frozenIf true ("tuple<" ++ ", ".intercalate (toCqlAll elements) ++ ">")
  | .custom className => "'" ++ className ++ "'"

/-- The spellings of types in order. -/
def toCqlAll : List CqlType → List String
  | [] => []
  | t :: rest => t.toCql :: toCqlAll rest

end

end SchemaTypes.CqlType
