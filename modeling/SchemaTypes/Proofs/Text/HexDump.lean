import SchemaTypes.Text.HexDump
import Mathlib.Data.List.Basic

/-!
# Hex dumps are read back

Dumping a text and reading the dump gives the text again: each byte comes back from its two
digits, and each character from its bytes.

## Main results

* `Utf8.decodeFrom_utf8EncodeChar`: the bytes of a character are read as that character.
* `Utf8.decode_encode`, `Hex.decode_encode` and `HexDump.decode_encode`: decoding inverts
  encoding.
* `HexDump.digit_of_mem_encode`: a dump holds nothing but lower-case digits.
-/

namespace SchemaTypes.Text

namespace Utf8

/-- The form that a first byte announces, in terms of its value. -/
theorem ofLead?_ofNat {n : Nat} (h : n < 256) :
    Form.ofLead? (UInt8.ofNat n) =
      if n ≤ 0x7F then some ⟨n, []⟩
      else if n ≤ 0xC1 then none
      else if n ≤ 0xDF then some ⟨n - 0xC0, [tailByte]⟩
      else if n = 0xE0 then some ⟨n - 0xE0, [⟨0xA0, 0xBF⟩, tailByte]⟩
      else if n = 0xED then some ⟨n - 0xE0, [⟨0x80, 0x9F⟩, tailByte]⟩
      else if n ≤ 0xEF then some ⟨n - 0xE0, [tailByte, tailByte]⟩
      else if n = 0xF0 then some ⟨n - 0xF0, [⟨0x90, 0xBF⟩, tailByte, tailByte]⟩
      else if n ≤ 0xF3 then some ⟨n - 0xF0, [tailByte, tailByte, tailByte]⟩
      else if n = 0xF4 then some ⟨n - 0xF0, [⟨0x80, 0x8F⟩, tailByte, tailByte]⟩
      else none := by
  simp only [Form.ofLead?, UInt8.le_iff_toNat_le, ← UInt8.toNat_inj, UInt8.reduceToNat,
    UInt8.toNat_ofNat_of_lt' h]

/-- Two bytes are announced without a limit of their own. -/
theorem ofLead?_two {n : Nat} (hlow : 0xC2 ≤ n) (hhigh : n ≤ 0xDF) :
    Form.ofLead? (UInt8.ofNat n) = some ⟨n - 0xC0, [tailByte]⟩ := by
  rw [ofLead?_ofNat (by omega), if_neg (by omega), if_neg (by omega), if_pos hhigh]

/-- Of three bytes the second is limited after `E0` and after `ED`. -/
theorem ofLead?_three {n : Nat} (hlow : 0xE0 ≤ n) (hhigh : n ≤ 0xEF) :
    Form.ofLead? (UInt8.ofNat n) =
      some ⟨n - 0xE0,
        [⟨if n = 0xE0 then 0xA0 else 0x80, if n = 0xED then 0x9F else 0xBF⟩, tailByte]⟩ := by
  rw [ofLead?_ofNat (by omega), if_neg (by omega), if_neg (by omega), if_neg (by omega)]
  by_cases hfirst : n = 0xE0
  · subst hfirst
    rfl
  · by_cases hsurrogate : n = 0xED
    · subst hsurrogate
      rfl
    · simp only [if_neg hfirst, if_neg hsurrogate, if_pos hhigh, tailByte]

/-- Of four bytes the second is limited after `F0` and after `F4`. -/
theorem ofLead?_four {n : Nat} (hlow : 0xF0 ≤ n) (hhigh : n ≤ 0xF4) :
    Form.ofLead? (UInt8.ofNat n) =
      some ⟨n - 0xF0,
        [⟨if n = 0xF0 then 0x90 else 0x80, if n = 0xF4 then 0x8F else 0xBF⟩, tailByte,
          tailByte]⟩ := by
  rw [ofLead?_ofNat (by omega), if_neg (by omega), if_neg (by omega), if_neg (by omega),
    if_neg (by omega), if_neg (by omega), if_neg (by omega)]
  by_cases hfirst : n = 0xF0
  · subst hfirst
    rfl
  · by_cases hlast : n = 0xF4
    · subst hlast
      rfl
    · simp only [if_neg hfirst, if_neg hlast, if_pos (show n ≤ 0xF3 by omega), tailByte]

/-- A byte that fits adds its six bits to the value. -/
theorem continueWith_cons {low high : UInt8} {ranges : List Range} {value x : Nat}
    {bytes rest : List UInt8} {result : Nat} (hx : x < 64) (hlow : low.toNat ≤ x + 0x80)
    (hhigh : x + 0x80 ≤ high.toNat)
    (h : continueWith (value * 64 + x) ranges bytes = .ok (result, rest)) :
    continueWith value (⟨low, high⟩ :: ranges) (UInt8.ofNat (x + 0x80) :: bytes) =
      .ok (result, rest) := by
  -- Six bits above `0x80` fit into a byte.
  have hbyte : (UInt8.ofNat (x + 0x80)).toNat = x + 0x80 :=
    UInt8.toNat_ofNat_of_lt' (by simp only [UInt8.size]; omega)
  have hfits : Range.contains ⟨low, high⟩ (UInt8.ofNat (x + 0x80)) = true := by
    simp only [Range.contains, Bool.and_eq_true, decide_eq_true_eq, UInt8.le_iff_toNat_le, hbyte]
    exact ⟨hlow, hhigh⟩
  rw [continueWith, if_pos hfits, hbyte, Nat.add_sub_cancel, h]
  rfl

/-- Decoding a sequence: the form of its first byte says which bytes continue it. -/
theorem decodeFrom_cons {position : Nat} {lead : UInt8} {bytes rest : List UInt8} {form : Form}
    {value : Nat} (hform : Form.ofLead? lead = some form)
    (h : continueWith form.payload form.tail bytes = .ok (value, rest)) :
    decodeFrom position (lead :: bytes) =
      (decodeFrom (position + 1 + form.tail.length) rest).map (Char.ofNat value :: ·) := by
  rw [decodeFrom, hform]
  simp only
  split
  · next hcontinue => simp [h] at hcontinue
  · next hcontinue =>
    rw [h] at hcontinue
    cases hcontinue
    rfl

theorem decodeFrom_two (position : Nat) {v : Nat} (hlow : 0x7F < v) (hhigh : v ≤ 0x7FF)
    (rest : List UInt8) :
    decodeFrom position
        (UInt8.ofNat (v / 64 % 0x20 + 0xC0) :: UInt8.ofNat (v % 0x40 + 0x80) :: rest) =
      (decodeFrom (position + 2) rest).map (Char.ofNat v :: ·) := by
  -- The code point is put together from its two groups of bits.
  have hvalue : (v / 64 % 0x20 + 0xC0 - 0xC0) * 64 + v % 0x40 = v := by omega
  refine decodeFrom_cons (ofLead?_two (by omega) (by omega)) ?_
  refine continueWith_cons (by omega) ?_ ?_ ?_
  · simp
  · simp only [UInt8.reduceToNat]
    omega
  · rw [hvalue, continueWith]

theorem decodeFrom_three (position : Nat) {v : Nat} (hlow : 0x7FF < v) (hhigh : v ≤ 0xFFFF)
    (hsurrogate : v < 0xD800 ∨ 0xDFFF < v) (rest : List UInt8) :
    decodeFrom position
        (UInt8.ofNat (v / 4096 % 0x10 + 0xE0) :: UInt8.ofNat (v / 64 % 0x40 + 0x80) ::
          UInt8.ofNat (v % 0x40 + 0x80) :: rest) =
      (decodeFrom (position + 3) rest).map (Char.ofNat v :: ·) := by
  have hvalue :
      ((v / 4096 % 0x10 + 0xE0 - 0xE0) * 64 + v / 64 % 0x40) * 64 + v % 0x40 = v := by omega
  refine decodeFrom_cons (ofLead?_three (by omega) (by omega)) ?_
  -- The least second byte keeps out overlong forms, the greatest one surrogates.
  refine continueWith_cons (by omega) ?_ ?_ (continueWith_cons (by omega) ?_ ?_ ?_)
  · split <;> simp only [UInt8.reduceToNat] <;> omega
  · split <;> simp only [UInt8.reduceToNat] <;> omega
  · simp
  · simp only [UInt8.reduceToNat]
    omega
  · rw [hvalue, continueWith]

theorem decodeFrom_four (position : Nat) {v : Nat} (hlow : 0xFFFF < v) (hhigh : v < 0x110000)
    (rest : List UInt8) :
    decodeFrom position
        (UInt8.ofNat (v / 262144 % 0x08 + 0xF0) :: UInt8.ofNat (v / 4096 % 0x40 + 0x80) ::
          UInt8.ofNat (v / 64 % 0x40 + 0x80) :: UInt8.ofNat (v % 0x40 + 0x80) :: rest) =
      (decodeFrom (position + 4) rest).map (Char.ofNat v :: ·) := by
  have hvalue :
      (((v / 262144 % 0x08 + 0xF0 - 0xF0) * 64 + v / 4096 % 0x40) * 64 + v / 64 % 0x40) * 64 +
        v % 0x40 = v := by omega
  refine decodeFrom_cons (ofLead?_four (by omega) (by omega)) ?_
  -- The least second byte keeps out overlong forms, the greatest one values that are no code
  -- points.
  refine continueWith_cons (by omega) ?_ ?_
    (continueWith_cons (by omega) ?_ ?_ (continueWith_cons (by omega) ?_ ?_ ?_))
  · split <;> simp only [UInt8.reduceToNat] <;> omega
  · split <;> simp only [UInt8.reduceToNat] <;> omega
  · simp
  · simp only [UInt8.reduceToNat]
    omega
  · simp
  · simp only [UInt8.reduceToNat]
    omega
  · rw [hvalue, continueWith]

/-- The bytes of a character are read as that character. -/
theorem decodeFrom_utf8EncodeChar (position : Nat) (c : Char) (rest : List UInt8) :
    ∃ next, decodeFrom position (String.utf8EncodeChar c ++ rest) =
      (decodeFrom next rest).map (c :: ·) := by
  have hchar : Char.ofNat c.val.toNat = c := Char.ofNat_toNat c
  -- No character is a surrogate or lies above the last code point.
  have hvalid : c.val.toNat < 0xD800 ∨ 0xDFFF < c.val.toNat ∧ c.val.toNat < 0x110000 := c.valid
  rw [String.utf8EncodeChar]
  generalize c.val.toNat = v at hchar hvalid
  subst hchar
  -- One case for each length of an encoding.
  split_ifs with hone htwo hthree
  · have hlead : Form.ofLead? (UInt8.ofNat v) = some ⟨v, []⟩ := by
      rw [ofLead?_ofNat (by omega), if_pos hone]
    exact ⟨_, decodeFrom_cons hlead rfl⟩
  · exact ⟨_, decodeFrom_two position (by omega) htwo rest⟩
  · exact ⟨_, decodeFrom_three position (by omega) hthree (by omega) rest⟩
  · exact ⟨_, decodeFrom_four position (by omega) (by omega) rest⟩

/-- A text is read back from its bytes. -/
theorem decode_encode (text : List Char) : decode (encode text) = .ok text := by
  -- The position is only for faults, so the induction is over all positions at once.
  suffices ∀ position, decodeFrom position (encode text) = .ok text from this 0
  induction text with
  | nil =>
    intro position
    rw [encode, List.flatMap_nil, decodeFrom]
  | cons c text ih =>
    intro position
    obtain ⟨next, hnext⟩ := decodeFrom_utf8EncodeChar position c (encode text)
    rw [encode, List.flatMap_cons]
    rw [encode] at hnext ih
    rw [hnext, ih next]
    rfl

end Utf8

namespace Hex

theorem digit?_digit {n : Nat} (h : n < 16) : digit? (digit n) = some n := by
  revert h
  revert n
  decide

/-- A digit is no space and lies in ASCII. -/
theorem digit_props {n : Nat} (h : n < 16) :
    isSpace (digit n) = false ∧ (digit n).toNat < 128 := by
  revert h
  revert n
  decide

/-- A dump holds nothing but digits. -/
theorem exists_of_mem_encode {bytes : List UInt8} {c : Char} (h : c ∈ encode bytes) :
    ∃ n, n < 16 ∧ c = digit n := by
  obtain ⟨b, _, hc⟩ := List.mem_flatMap.1 h
  have hb := b.toNat_lt
  rcases List.mem_pair.1 hc with rfl | rfl
  · exact ⟨b.toNat / 16, by omega, rfl⟩
  · exact ⟨b.toNat % 16, by omega, rfl⟩

/-- A byte is read back from its two digits. -/
theorem pairsFrom_pair (position : Nat) (b : UInt8) (rest : List Char) :
    pairsFrom position (pair b ++ rest) = (pairsFrom (position + 2) rest).map (b :: ·) := by
  have hb := b.toNat_lt
  have hhigh : b.toNat / 16 < 16 := by omega
  have hlow : b.toNat % 16 < 16 := by omega
  -- Spaces are passed before a pair only, and a digit is no space.
  have hspace : ¬ isSpace (digit (b.toNat / 16)) = true := by simp [(digit_props hhigh).1]
  have hbyte : UInt8.ofNat (b.toNat / 16 * 16 + b.toNat % 16) = b := by
    rw [Nat.div_add_mod']
    exact UInt8.ofNat_toNat
  rw [pair, List.cons_append, List.cons_append, List.nil_append, pairsFrom.eq_def]
  simp only [if_neg hspace, digit?_digit hhigh, digit?_digit hlow, hbyte]

/-- Bytes are read back from their dump. -/
theorem decode_encode (bytes : List UInt8) : decode (encode bytes) = .ok bytes := by
  -- Digits lie in ASCII, so that no character is blamed before the pairs are read.
  have hascii : (encode bytes).findIdx? (fun c => 128 ≤ c.toNat) = none := by
    rw [List.findIdx?_eq_none_iff]
    intro c hc
    obtain ⟨n, hn, rfl⟩ := exists_of_mem_encode hc
    simpa using (digit_props hn).2
  have hpairs : ∀ position, pairsFrom position (encode bytes) = .ok bytes := by
    clear hascii
    induction bytes with
    | nil =>
      intro position
      rfl
    | cons b bytes ih =>
      intro position
      rw [encode, List.flatMap_cons, pairsFrom_pair]
      rw [encode] at ih
      rw [ih]
      rfl
  rw [decode, hascii]
  exact hpairs 0

end Hex

namespace HexDump

/-- A text without the letter of a marker has no marker to lose. -/
theorem withoutMarker_eq_self {dump : List Char} (hlower : 'x' ∉ dump) (hupper : 'X' ∉ dump) :
    withoutMarker dump = dump := by
  rw [withoutMarker.eq_def]
  split
  · next digits => exact absurd (by simp) hlower
  · next digits => exact absurd (by simp) hupper
  · rfl

/-- A dump holds nothing but digits. -/
theorem digit_of_mem_encode {text : String} {c : Char} (h : c ∈ (encode text).toList) :
    ∃ n, n < 16 ∧ c = Hex.digit n := by
  rw [encode, String.toList_ofList] at h
  exact Hex.exists_of_mem_encode h

/-- No digit is the letter of a marker. -/
theorem withoutMarker_encode (text : String) :
    withoutMarker (encode text).toList = (encode text).toList := by
  have hne : ∀ n, n < 16 → Hex.digit n ≠ 'x' ∧ Hex.digit n ≠ 'X' := by decide
  apply withoutMarker_eq_self
  · intro h
    obtain ⟨n, hn, hdigit⟩ := digit_of_mem_encode h
    exact (hne n hn).1 hdigit.symm
  · intro h
    obtain ⟨n, hn, hdigit⟩ := digit_of_mem_encode h
    exact (hne n hn).2 hdigit.symm

/-- A text is read back from its dump. -/
theorem decode_encode (text : String) : decode (encode text) = .ok text := by
  rw [decode, withoutMarker_encode, encode, String.toList_ofList, Hex.decode_encode]
  change ((Utf8.decode (Utf8.encode text.toList)).mapError Fault.notUtf8).bind
    (fun text => .ok (String.ofList text)) = _
  rw [Utf8.decode_encode]
  exact congrArg Except.ok String.ofList_toList

end HexDump

end SchemaTypes.Text
