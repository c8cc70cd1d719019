import SchemaTypes.Text.Shown

/-!
# Native types

The types that CQL has built in, each with its CQL name and its label, the name in capitals.

## Main definitions

* `NativeType`, with the list `NativeType.all` of its members in order.
* `NativeType.cqlName` and `NativeType.ofName`, which are inverse to each other.
-/

namespace SchemaTypes

/-- A type that CQL has built in. -/
inductive NativeType
  | ascii
  | bigint
  | blob
  | boolean
  | counter
  | decimal
  | double
  | float
  | inet
  | int
  | text
  | timestamp
  | date
  | time
  | uuid
  | varint
  | timeuuid
  | tinyint
  | smallint
  | duration
  deriving DecidableEq, Repr

/-- A name that none of the members of a closed set bears. -/
structure UnknownName where
  /-- The set that was searched. -/
  set : String
  /-- The name that was looked for. -/
  name : String
  deriving DecidableEq, Repr

/-- The wording of a failed search. -/
def UnknownName.message (unknown : UnknownName) : String :=
  Text.Shown.quoted unknown.name ++ " is not a valid " ++ unknown.set

namespace NativeType

/-- All native types in the order of their declaration. -/
def all : List NativeType :=
  [.ascii, .bigint, .blob, .boolean, .counter, .decimal, .double, .float, .inet, .int, .text,
    .timestamp, .date, .time, .uuid, .varint, .timeuuid, .tinyint, .smallint, .duration]

/-- The name of the type in CQL. -/
def cqlName : NativeType → String
  | .ascii => "ascii"
  | .bigint => "bigint"
  | .blob => "blob"
  | .boolean => "boolean"
  | .counter => "counter"
  | .decimal => "decimal"
  | .double => "double"
  | .float => "float"
  | .inet => "inet"
  | .int => "int"
  | .text => "text"
  | .timestamp => "timestamp"
  | .date => "date"
  | .time => "time"
  | .uuid => "uuid"
  | .varint => "varint"
  | .timeuuid => "timeuuid"
  | .tinyint => "tinyint"
  | .smallint => "smallint"
  | .duration => "duration"

/-- The name in capitals. -/
def label (t : NativeType) : String :=
  t.cqlName.toUpper

/-- The type with a CQL name, letter case and blanks included. -/
def ofName (name : String) : Except UnknownName NativeType :=
  match all.find? (·.cqlName = name) with
  | some t => .ok t
  | none => .error ⟨"NativeType", name⟩

/-- The list of members is complete. -/
theorem mem_all (t : NativeType) : t ∈ all := by
  cases t <;> decide

/-- A type is found again under its own name. -/
theorem ofName_cqlName (t : NativeType) : ofName t.cqlName = .ok t := by
  cases t <;> rfl

end NativeType

end SchemaTypes
