import SchemaTypes.Text.Utf8

/-!
# Names as hex dumps

Inside a class name, names that users chose are dumped as the hexadecimal digits of their UTF-8
bytes, so that they cannot meet the punctuation around them.

## Main definitions

* `HexDump.encode`: the dump of a text.
* `HexDump.decode`: the text of a dump, which may open with `0x` or `0X`.
-/

namespace SchemaTypes.Text.HexDump

/-- Why a text is not the dump of a name. -/
inductive Fault
  /-- The character at the position, counted without the marker, is no fitting digit. -/
  | notHex (position : Nat)
  /-- The bytes are not UTF-8. -/
  | notUtf8 (fault : Utf8.Fault)
  deriving DecidableEq, Repr

/-- The wording of a fault. -/
def Fault.message : Fault → String
  | .notHex position =>
    "non-hexadecimal number found in fromhex() arg at position " ++ toString position
  | .notUtf8 fault => fault.message

/-- The dump of a text, in lower case and without a marker. -/
def encode (text : String) : String :=
  String.ofList (Hex.encode (Utf8.encode text.toList))

/-- Removes one marker `0x` or `0X` from the front. -/
def withoutMarker : List Char → List Char
  | '0' :: 'x' :: digits => digits
  | '0' :: 'X' :: digits => digits
  | digits => digits

/-- The text of a dump: hexadecimal pairs first, then UTF-8. -/
def decode (dump : String) : Except Fault String := do
  let bytes ← (Hex.decode (withoutMarker dump.toList)).mapError .notHex
  let text ← (Utf8.decode bytes).mapError .notUtf8
  return String.ofList text

end SchemaTypes.Text.HexDump
