import SchemaTypes.Text.HexDump

/-!
# Decoders of names

A decoder turns the text that stands for a name into the name. The usual one reads hex dumps;
callers may bring their own.

## Main definitions

* `Decoder` and `DecoderFault`: what a decoder answers.
* `Decoder.hexDump`: the decoder of hex dumps.
-/

namespace SchemaTypes.ClassName

/-- Why a decoder gives no name. -/
inductive DecoderFault
  /-- The text is not a hex dump of UTF-8. -/
  | dump (fault : Text.HexDump.Fault)
  /-- The decoder objects to the text, in its own words. -/
  | rejected (message : String)
  /-- The decoder could not do its work, whatever the text. -/
  | unavailable (message : String)
  deriving DecidableEq, Repr

namespace DecoderFault

/-- The wording of a fault. -/
def message : DecoderFault → String
  | .dump fault => fault.message
  | .rejected message => message
  | .unavailable message => message

/-- The text is to blame, so that the class name around it is malformed. -/
def blamesText : DecoderFault → Bool
  | .unavailable _ => false
  | _ => true

end DecoderFault

/-- What turns the text that stands for a name into the name. -/
abbrev Decoder := String → Except DecoderFault String

/-- The decoder of hex dumps. -/
def Decoder.hexDump : Decoder := fun dump => (Text.HexDump.decode dump).mapError .dump

end SchemaTypes.ClassName
