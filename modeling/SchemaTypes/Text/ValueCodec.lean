import SchemaTypes.Text.Utf8

/-!
# Value codecs

A codec turns the values of a column into bytes and back. Null is the same for every codec: it
is written as no bytes and read from no cell, and only other values reach the codec's own two
functions.

## Main definitions

* `ValueCodec`: the two functions a codec supplies.
* `ValueCodec.write`, `ValueCodec.read`: the codec together with the rule for null.
* `ValueCodec.undefined`: the codec that supplies neither.
* `ValueCodec.varchar`: values by their spelling in UTF-8.
-/

namespace SchemaTypes.Text

/-- A value to be written. -/
inductive Value
  | null
  | text (s : String)
  | integer (n : Int)
  | boolean (b : Bool)
  deriving DecidableEq, Repr

/-- The spelling of a value as a text: a text is its own, a number is in decimal. -/
def Value.spelling : Value → String
  | .null => "None"
  | .text s => s
  | .integer n => toString n
  | .boolean true => "True"
  | .boolean false => "False"

/-- Why a codec gives no result. -/
inductive ValueCodec.Fault
  /-- The codec does not supply the function. -/
  | unsupported
  /-- The bytes are not UTF-8. -/
  | notUtf8 (fault : Utf8.Fault)
  deriving DecidableEq, Repr

/-- The wording of a fault; an unsupported function has none. -/
def ValueCodec.Fault.message : ValueCodec.Fault → String
  | .unsupported => ""
  | .notUtf8 fault => fault.message

/-- The functions that a codec supplies for values other than null. -/
structure ValueCodec where
  /-- The bytes of a value. -/
  writeValue : Value → Except ValueCodec.Fault (List UInt8)
  /-- The text in a cell. -/
  readValue : List UInt8 → Except ValueCodec.Fault String

namespace ValueCodec

/-- Writes a value; null has no bytes. -/
def write (codec : ValueCodec) : Value → Except Fault (List UInt8)
  | .null => .ok []
  | value => codec.writeValue value

/-- Reads a cell; an absent cell is null. -/
def read (codec : ValueCodec) : Option (List UInt8) → Except Fault (Option String)
  | none => .ok none
  | some bytes => (codec.readValue bytes).map some

/-- The codec that supplies no function of its own. -/
def undefined : ValueCodec where
  writeValue _ := .error .unsupported
  readValue _ := .error .unsupported

/-- The codec of text columns: the UTF-8 bytes of a value's spelling. -/
def varchar : ValueCodec where
  writeValue value := .ok (Utf8.encode value.spelling.toList)
  readValue bytes := ((Utf8.decode bytes).map String.ofList).mapError .notUtf8

end ValueCodec

end SchemaTypes.Text
