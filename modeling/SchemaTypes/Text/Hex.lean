/-!
# Hexadecimal dumps of bytes

A byte is dumped as two hexadecimal digits, the high half first. Dumps are written in lower
case; they are read in either letter case, and blank characters may stand before a pair.

## Main definitions

* `Hex.encode`: the lower-case dump of a list of bytes.
* `Hex.decode`: the bytes of a dump, or the position of the character that is at fault.
-/

namespace SchemaTypes.Text.Hex

/-- The digit for a value below sixteen, in lower case. -/
def digit (n : Nat) : Char :=
  if n < 10 then Char.ofNat ('0'.toNat + n) else Char.ofNat ('a'.toNat + (n - 10))

/-- The value of a hexadecimal digit in either letter case. -/
def digit? (c : Char) : Option Nat :=
  if '0' ≤ c ∧ c ≤ '9' then some (c.toNat - '0'.toNat)
  else if 'a' ≤ c ∧ c ≤ 'f' then some (c.toNat - 'a'.toNat + 10)
  else if 'A' ≤ c ∧ c ≤ 'F' then some (c.toNat - 'A'.toNat + 10)
  else none

/-- The two digits of a byte. -/
def pair (b : UInt8) : List Char :=
  [digit (b.toNat / 16), digit (b.toNat % 16)]

/-- The dump of a list of bytes: the digits of each byte in turn. -/
def encode (bytes : List UInt8) : List Char :=
  bytes.flatMap pair

/-- The six ASCII characters that may separate pairs: space, tab, newline, vertical tab, form
feed and carriage return. -/
def isSpace (c : Char) : Bool :=
  c == ' ' || c == '\t' || c == '\n' || c == '\x0b' || c == '\x0c' || c == '\r'

/-- Reads pairs of digits from a text whose first character has the given position. A pair may
have spaces before it and none inside; the error is the position of the first character that
is not the expected digit, which is the end of the text if a pair lacks its second half. -/
def pairsFrom (position : Nat) : List Char → Except Nat (List UInt8)
  | [] => .ok []
  | c :: rest =>
    if isSpace c then pairsFrom (position + 1) rest
    else
      match digit? c, rest with
      | none, _ => .error position
      | some _, [] => .error (position + 1)
      | some high, d :: rest =>
        match digit? d with
        | none => .error (position + 1)
        | some low =>
          (pairsFrom (position + 2) rest).map (UInt8.ofNat (high * 16 + low) :: ·)

/-- The bytes of a dump. A character outside ASCII is at fault before any other: the error is
then the position of the first such character, and else that of `pairsFrom`. -/
def decode (dump : List Char) : Except Nat (List UInt8) :=
  match dump.findIdx? (fun c => 128 ≤ c.toNat) with
  | some position => .error position
  | none => pairsFrom 0 dump

end SchemaTypes.Text.Hex
