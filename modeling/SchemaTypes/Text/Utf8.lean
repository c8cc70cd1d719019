import SchemaTypes.Text.Hex

/-!
# Strict UTF-8

Every code point has one encoding. Reading refuses overlong forms, encoded surrogates, values
above the last code point and sequences that are cut short, and says which bytes are at fault:
the longest start of a well-formed sequence, or a single byte that starts none.

## Main definitions

* `Utf8.encode`: the bytes of a text.
* `Utf8.Form`: what the first byte of a sequence says about the bytes that follow.
* `Utf8.decode`: the text of a list of bytes, or the `Utf8.Fault` found first.
-/

namespace SchemaTypes.Text.Utf8

/-- The bytes of a text: the encodings of its characters in turn. -/
def encode (text : List Char) : List UInt8 :=
  text.flatMap String.utf8EncodeChar

/-- What is wrong with a sequence of bytes. -/
inductive Defect
  /-- The first byte starts no sequence. -/
  | start
  /-- A byte stands where another one has to continue the sequence. -/
  | continuation
  /-- The bytes end before the sequence does. -/
  | truncated
  deriving DecidableEq, Repr

/-- The wording of a defect. -/
def Defect.text : Defect → String
  | .start => "invalid start byte"
  | .continuation => "invalid continuation byte"
  | .truncated => "unexpected end of data"

/-- A run of bytes that is not UTF-8. -/
structure Fault where
  /-- Where the run starts. -/
  position : Nat
  /-- Its first byte. -/
  lead : UInt8
  /-- How many further bytes belong to the run. -/
  further : Nat
  /-- What is wrong with it. -/
  defect : Defect
  deriving DecidableEq, Repr

/-- A run of one byte is reported by its value, a longer one by its first and last position. -/
def Fault.message (fault : Fault) : String :=
  let place :=
    if fault.further = 0 then
      "byte 0x" ++ String.ofList (Hex.pair fault.lead) ++ " in position " ++
        toString fault.position
    else
      "bytes in position " ++ toString fault.position ++ "-" ++
        toString (fault.position + fault.further)
  "'utf-8' codec can't decode " ++ place ++ ": " ++ fault.defect.text

/-- A closed interval of bytes. -/
structure Range where
  /-- The least byte. -/
  low : UInt8
  /-- The greatest byte. -/
  high : UInt8
  deriving DecidableEq, Repr

/-- The byte lies in the interval. -/
def Range.contains (range : Range) (b : UInt8) : Bool :=
  range.low ≤ b && b ≤ range.high

/-- The bytes that continue a sequence. -/
def tailByte : Range := ⟨0x80, 0xBF⟩

/-- What the first byte of a sequence fixes. -/
structure Form where
  /-- The bits of the code point that the first byte holds. -/
  payload : Nat
  /-- The bytes that may follow, place by place. -/
  tail : List Range
  deriving DecidableEq, Repr

/-- The form that a first byte announces. The second byte is limited where the whole range would
admit an overlong form (after `E0` and `F0`), a surrogate (after `ED`) or a value above the last
code point (after `F4`). -/
def Form.ofLead? (b : UInt8) : Option Form :=
  if b ≤ 0x7F then some ⟨b.toNat, []⟩
  -- Neither a continuation nor the start of an overlong form starts a sequence.
  else if b ≤ 0xC1 then none
  else if b ≤ 0xDF then some ⟨b.toNat - 0xC0, [tailByte]⟩
  else if b = 0xE0 then some ⟨b.toNat - 0xE0, [⟨0xA0, 0xBF⟩, tailByte]⟩
  else if b = 0xED then some ⟨b.toNat - 0xE0, [⟨0x80, 0x9F⟩, tailByte]⟩
  else if b ≤ 0xEF then some ⟨b.toNat - 0xE0, [tailByte, tailByte]⟩
  else if b = 0xF0 then some ⟨b.toNat - 0xF0, [⟨0x90, 0xBF⟩, tailByte, tailByte]⟩
  else if b ≤ 0xF3 then some ⟨b.toNat - 0xF0, [tailByte, tailByte, tailByte]⟩
  else if b = 0xF4 then some ⟨b.toNat - 0xF0, [⟨0x80, 0x8F⟩, tailByte, tailByte]⟩
  else none

/-- Reads the bytes that continue a sequence, adding six bits to the value for each of them, and
returns the value and the bytes left over. The error counts the bytes that fitted. -/
def continueWith (value : Nat) :
    List Range → List UInt8 → Except (Nat × Defect) (Nat × List UInt8)
  | [], rest => .ok (value, rest)
  | _ :: _, [] => .error (0, .truncated)
  | range :: ranges, b :: rest =>
    if range.contains b then
      (continueWith (value * 64 + (b.toNat - 0x80)) ranges rest).mapError
        fun (fitting, defect) => (fitting + 1, defect)
    else .error (0, .continuation)

/-- Continuing a sequence never leaves more bytes than there were. -/
theorem length_le_of_continueWith {ranges : List Range} {bytes rest : List UInt8}
    {value result : Nat} (h : continueWith value ranges bytes = .ok (result, rest)) :
    rest.length ≤ bytes.length := by
  induction ranges generalizing value bytes with
  | nil => simp_all [continueWith]
  | cons range ranges ih =>
    cases bytes with
    | nil => simp [continueWith] at h
    | cons b bytes =>
      simp only [continueWith] at h
      split at h
      · generalize hr : continueWith (value * 64 + (b.toNat - 0x80)) ranges bytes = r at h
        cases r with
        | error => cases h
        | ok =>
          cases h
          have := ih hr
          simp only [List.length_cons]
          omega
      · simp at h

/-- Decodes bytes of which the first has the given position. -/
def decodeFrom (position : Nat) : List UInt8 → Except Fault (List Char)
  | [] => .ok []
  | lead :: bytes =>
    match Form.ofLead? lead with
    | none => .error ⟨position, lead, 0, .start⟩
    | some form =>
      match _h : continueWith form.payload form.tail bytes with
      | .error (fitting, defect) => .error ⟨position, lead, fitting, defect⟩
      | .ok (value, rest) =>
        (decodeFrom (position + 1 + form.tail.length) rest).map (Char.ofNat value :: ·)
termination_by bytes => bytes.length
decreasing_by
  have := length_le_of_continueWith _h
  simp only [List.length_cons]
  omega

/-- The text of a list of bytes, or the first fault in it. -/
def decode (bytes : List UInt8) : Except Fault (List Char) :=
  decodeFrom 0 bytes

end SchemaTypes.Text.Utf8
