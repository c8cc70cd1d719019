import SchemaTypes.Proofs.Text.Utf8

/-!
# Spellings of a hex dump

A text has one dump that is written, and several that are read as the text: digits may be in
either letter case, spaces may stand before each pair and at the end, and a marker may stand in
front of all. Nothing else is read, and what is wrong with a dump is told apart: that it is no
sequence of pairs, or that its bytes are no text.

## Main definitions

* `Hex.IsPairs`, `Hex.lowerDigits`: sequences of pairs, and their digits in lower case.
* `HexDump.Spells`: the dumps of a text.

## Main results

* `Hex.decode_eq_ok_iff`: the dumps of bytes.
* `HexDump.decode_iff_spells`: the dumps of a text, and the two ways to be no dump.
-/

namespace SchemaTypes.Text

namespace Hex

/-- A hexadecimal digit in either letter case. -/
def isDigit (c : Char) : Bool :=
  ('0' ≤ c && c ≤ '9') || ('a' ≤ c && c ≤ 'f') || ('A' ≤ c && c ≤ 'F')

/-- Pairs of digits. Spaces may stand before a pair and at the end. -/
inductive IsPairs : List Char → Prop
  | nil : IsPairs []
  | space {c : Char} {rest : List Char} : isSpace c = true → IsPairs rest → IsPairs (c :: rest)
  | pair {c d : Char} {rest : List Char} : isDigit c = true → isDigit d = true → IsPairs rest →
      IsPairs (c :: d :: rest)

/-- The digits of a dump in lower case, without the spaces. -/
def lowerDigits (dump : List Char) : List Char :=
  (dump.filter fun c => !isSpace c).map Char.toLower

theorem isSome_digit? (c : Char) : (digit? c).isSome = isDigit c := by
  rw [digit?, isDigit]
  split_ifs <;> simp_all

theorem ascii_of_isSpace {c : Char} (h : isSpace c = true) : c.toNat < 128 := by
  simp only [isSpace, Bool.or_eq_true, beq_iff_eq] at h
  rcases h with ((((rfl | rfl) | rfl) | rfl) | rfl) | rfl <;> decide

theorem ascii_of_isDigit {c : Char} (h : isDigit c = true) : c.toNat < 128 := by
  simp only [isDigit, Bool.or_eq_true, Bool.and_eq_true, decide_eq_true_eq, Char.le_def,
    UInt32.le_iff_toNat_le] at h
  simp only [Char.reduceVal, UInt32.reduceToNat] at h
  rw [Char.toNat]
  omega

/-- A digit is no space, and its value is that of the digit in lower case. -/
theorem digit_of_digit? {c : Char} {value : Nat} (h : digit? c = some value) :
    isSpace c = false ∧ value < 16 ∧ c.toLower = digit value := by
  have hascii : ∀ n < 128, ∀ value ∈ digit? (Char.ofNat n), isSpace (Char.ofNat n) = false ∧
      value < 16 ∧ (Char.ofNat n).toLower = digit value := by decide
  have hdigit : isDigit c = true := by rw [← isSome_digit?, h, Option.isSome_some]
  have hc := hascii c.toNat (ascii_of_isDigit hdigit)
  rw [Char.ofNat_toNat] at hc
  exact hc value h

theorem IsPairs.ascii {dump : List Char} (h : IsPairs dump) : ∀ c ∈ dump, c.toNat < 128 := by
  induction h with
  | nil => simp
  | space hspace _ ih => exact List.forall_mem_cons.2 ⟨ascii_of_isSpace hspace, ih⟩
  | pair hhigh hlow _ ih =>
    exact List.forall_mem_cons.2 ⟨ascii_of_isDigit hhigh,
      List.forall_mem_cons.2 ⟨ascii_of_isDigit hlow, ih⟩⟩

/-- The two digits of a byte by the values of its halves. -/
theorem pair_ofNat {high low : Nat} (hhigh : high < 16) (hlow : low < 16) :
    pair (UInt8.ofNat (high * 16 + low)) = [digit high, digit low] := by
  have hbyte : (UInt8.ofNat (high * 16 + low)).toNat = high * 16 + low :=
    UInt8.toNat_ofNat_of_lt' (by simp only [UInt8.size]; omega)
  have hdiv : (high * 16 + low) / 16 = high := by omega
  have hmod : (high * 16 + low) % 16 = low := by omega
  rw [pair, hbyte, hdiv, hmod]

theorem lowerDigits_cons_space {c : Char} (h : isSpace c = true) (rest : List Char) :
    lowerDigits (c :: rest) = lowerDigits rest := by
  rw [lowerDigits, List.filter_cons_of_neg (by simp [h]), lowerDigits]

theorem lowerDigits_cons_digit {c : Char} {value : Nat} (h : digit? c = some value)
    (rest : List Char) : lowerDigits (c :: rest) = digit value :: lowerDigits rest := by
  obtain ⟨hspace, -, hlower⟩ := digit_of_digit? h
  rw [lowerDigits, List.filter_cons_of_pos (by simp [hspace]), List.map_cons, hlower, lowerDigits]

/-- What is read from a dump has the digits of the dump. -/
theorem lowerDigits_of_pairsFrom {position : Nat} {dump : List Char} {bytes : List UInt8}
    (h : pairsFrom position dump = .ok bytes) :
    IsPairs dump ∧ lowerDigits dump = encode bytes := by
  fun_induction pairsFrom position dump generalizing bytes with
  | case1 =>
    cases h
    exact ⟨.nil, rfl⟩
  | case2 position c rest hspace ih =>
    obtain ⟨hpairs, hdigits⟩ := ih h
    exact ⟨.space hspace hpairs, (lowerDigits_cons_space hspace rest).trans hdigits⟩
  | case3 => simp at h
  | case4 => simp at h
  | case5 => simp at h
  | case6 position c hspace high d rest hhigh low hlow ih =>
    cases hrest : pairsFrom (position + 2) rest with
    | error failed => simp [hrest, Except.map] at h
    | ok tail =>
      rw [hrest] at h
      cases h
      obtain ⟨hpairs, hdigits⟩ := ih hrest
      refine ⟨.pair ?_ ?_ hpairs, ?_⟩
      · rw [← isSome_digit?, hhigh, Option.isSome_some]
      · rw [← isSome_digit?, hlow, Option.isSome_some]
      · have hbyte := pair_ofNat (digit_of_digit? hhigh).2.1 (digit_of_digit? hlow).2.1
        calc lowerDigits (c :: d :: rest)
          _ = digit high :: digit low :: encode tail := by
            rw [lowerDigits_cons_digit hhigh, lowerDigits_cons_digit hlow, hdigits]
          _ = pair (UInt8.ofNat (high * 16 + low)) ++ encode tail := by rw [hbyte]; rfl
          _ = encode (UInt8.ofNat (high * 16 + low) :: tail) := rfl

/-- Pairs of digits are read, wherever they stand. -/
theorem IsPairs.exists_bytes {dump : List Char} (h : IsPairs dump) (position : Nat) :
    ∃ bytes, pairsFrom position dump = .ok bytes := by
  induction h generalizing position with
  | nil => exact ⟨[], rfl⟩
  | @space c rest hspace _ ih =>
    obtain ⟨bytes, hbytes⟩ := ih (position + 1)
    refine ⟨bytes, ?_⟩
    rw [pairsFrom.eq_def]
    simp only [hspace, if_true, hbytes]
  | @pair c d rest hc hd _ ih =>
    obtain ⟨bytes, hbytes⟩ := ih (position + 2)
    obtain ⟨high, hhigh⟩ := Option.isSome_iff_exists.1 ((isSome_digit? c).trans hc)
    obtain ⟨low, hlow⟩ := Option.isSome_iff_exists.1 ((isSome_digit? d).trans hd)
    refine ⟨UInt8.ofNat (high * 16 + low) :: bytes, ?_⟩
    rw [pairsFrom.eq_def]
    simp only [(digit_of_digit? hhigh).1, Bool.false_eq_true, if_false, hhigh, hlow, hbytes]
    rfl

theorem decode_of_ascii {dump : List Char} (h : ∀ c ∈ dump, c.toNat < 128) :
    decode dump = pairsFrom 0 dump := by
  have hnone : dump.findIdx? (fun c => 128 ≤ c.toNat) = none := by
    rw [List.findIdx?_eq_none_iff]
    intro c hc
    simpa using h c hc
  rw [decode, hnone]

/-- Bytes are read from their dumps: pairs of digits which, in lower case and without spaces, are
those that the bytes are written with. -/
theorem decode_eq_ok_iff {dump : List Char} {bytes : List UInt8} :
    decode dump = .ok bytes ↔ IsPairs dump ∧ lowerDigits dump = encode bytes := by
  constructor
  · intro h
    rw [decode] at h
    split at h
    · simp at h
    · exact lowerDigits_of_pairsFrom h
  · rintro ⟨hpairs, hdigits⟩
    obtain ⟨found, hfound⟩ := hpairs.exists_bytes 0
    have hdecode := (decode_of_ascii hpairs.ascii).trans hfound
    -- Bytes that are dumped alike are alike.
    have hsame : encode found = encode bytes :=
      (lowerDigits_of_pairsFrom hfound).2.symm.trans hdigits
    have := decode_encode found
    rw [hsame, decode_encode] at this
    rw [hdecode, ← this]

theorem exists_decode_eq_ok_iff {dump : List Char} :
    (∃ bytes, decode dump = .ok bytes) ↔ IsPairs dump := by
  constructor
  · rintro ⟨bytes, h⟩
    exact (decode_eq_ok_iff.1 h).1
  · intro h
    obtain ⟨bytes, hbytes⟩ := h.exists_bytes 0
    exact ⟨bytes, (decode_of_ascii h.ascii).trans hbytes⟩

end Hex

namespace HexDump

/-- The dump spells the text: behind the marker, if there is one, stand pairs of digits, and in
lower case and without spaces they are the digits that the text is dumped with. -/
def Spells (dump text : String) : Prop :=
  Hex.IsPairs (withoutMarker dump.toList) ∧
    Hex.lowerDigits (withoutMarker dump.toList) = (encode text).toList

/-- Decoding in its two steps. -/
theorem decode_apply (dump : String) :
    decode dump =
      match Hex.decode (withoutMarker dump.toList) with
      | .error position => .error (.notHex position)
      | .ok bytes =>
        match Utf8.decode bytes with
        | .error fault => .error (.notUtf8 fault)
        | .ok text => .ok (String.ofList text) := by
  rw [decode]
  cases Hex.decode (withoutMarker dump.toList) with
  | error position => rfl
  | ok bytes =>
    change (do
      let text ← (Utf8.decode bytes).mapError Fault.notUtf8
      return String.ofList text) = _
    simp only
    cases Utf8.decode bytes <;> rfl

/-- A dump is read as the text that it spells. -/
theorem decode_eq_ok_iff {dump text : String} : decode dump = .ok text ↔ Spells dump text := by
  rw [decode_apply, Spells, encode, String.toList_ofList, ← Hex.decode_eq_ok_iff]
  cases Hex.decode (withoutMarker dump.toList) with
  | error position => simp
  | ok bytes =>
    simp only [Except.ok.injEq]
    rw [← Utf8.decode_eq_ok_iff]
    cases Utf8.decode bytes with
    | error fault => simp
    | ok found =>
      simp only [Except.ok.injEq]
      constructor
      · rintro rfl
        exact String.toList_ofList.symm
      · rintro rfl
        exact String.ofList_toList

/-- A dump that spells no text is no sequence of pairs, or its bytes are not UTF-8. -/
theorem decode_eq_error_of_not_spells {dump : String} (h : ∀ text, ¬ Spells dump text) :
    ¬ Hex.IsPairs (withoutMarker dump.toList) ∧
        (∃ position, decode dump = .error (.notHex position)) ∨
      Hex.IsPairs (withoutMarker dump.toList) ∧
        ∃ fault, decode dump = .error (.notUtf8 fault) := by
  have hnone : ∀ text, decode dump ≠ .ok text := fun text hok => h text (decode_eq_ok_iff.1 hok)
  rw [decode_apply] at hnone ⊢
  rw [← Hex.exists_decode_eq_ok_iff]
  cases hpairs : Hex.decode (withoutMarker dump.toList) with
  | error position => exact .inl ⟨by simp, position, rfl⟩
  | ok bytes =>
    simp only [hpairs] at hnone ⊢
    refine .inr ⟨⟨bytes, rfl⟩, ?_⟩
    cases htext : Utf8.decode bytes with
    | error fault => exact ⟨fault, rfl⟩
    | ok text => exact absurd (by simp only [htext]) (hnone (String.ofList text))

/-- A marker in front of a dump does not change what it spells. -/
theorem decode_marker_append {marker : String} (h : marker ∈ ["0x", "0X"]) (text : String) :
    decode (marker ++ encode text) = .ok text := by
  have hmarker : withoutMarker (marker ++ encode text).toList = (encode text).toList := by
    simp only [List.mem_cons, List.not_mem_nil, or_false] at h
    rw [String.toList_append]
    rcases h with rfl | rfl <;> rfl
  have hspells := decode_eq_ok_iff.1 (decode_encode text)
  rw [Spells, withoutMarker_encode] at hspells
  rw [decode_eq_ok_iff, Spells, hmarker]
  exact hspells

/-- A dump is read as the text that it spells. One that spells no text is refused, either because
it is no sequence of pairs or because its bytes are not UTF-8. What is written is read back, also
behind a marker. -/
theorem decode_iff_spells (dump text : String) :
    (decode dump = .ok text ↔ Spells dump text) ∧
    ((∀ other, ¬ Spells dump other) →
      ¬ Hex.IsPairs (withoutMarker dump.toList) ∧
          (∃ position, decode dump = .error (.notHex position)) ∨
        Hex.IsPairs (withoutMarker dump.toList) ∧
          ∃ fault, decode dump = .error (.notUtf8 fault)) ∧
    decode (encode text) = .ok text ∧
    ∀ marker ∈ ["0x", "0X"], decode (marker ++ encode text) = .ok text :=
  ⟨decode_eq_ok_iff, decode_eq_error_of_not_spells, decode_encode text,
    fun _ hmarker => decode_marker_append hmarker text⟩

/-- Letter cases and spaces are mixed, a digit is missing, and a surrogate is spelled. -/
theorem decode_iff_spells_spaced :
    decode "0X C3\ta9 " = .ok "é" ∧
    (∃ position, decode "616" = .error (.notHex position)) ∧
    (∃ fault, decode "ed a0 80" = .error (.notUtf8 fault)) ∧
    decode ("0X" ++ encode "é") = .ok "é" := by
  have hspells : Spells "0X C3\ta9 " "é" :=
    ⟨.space rfl (.pair rfl rfl (.space rfl (.pair rfl rfl (.space rfl .nil)))), by decide +kernel⟩
  have hodd : ¬ Hex.IsPairs (withoutMarker "616".toList) := by
    rintro (_ | h | ⟨-, -, h⟩)
    · exact absurd h (by decide)
    · obtain _ | h := h
      exact absurd h (by decide)
  have hpairs : Hex.IsPairs (withoutMarker "ed a0 80".toList) :=
    .pair rfl rfl (.space rfl (.pair rfl rfl (.space rfl (.pair rfl rfl .nil))))
  have hsurrogate : ∀ text, ¬ Spells "ed a0 80" text := by
    intro text htext
    have herror : (decode "ed a0 80").toOption = none := by decide +kernel
    rw [decode_eq_ok_iff.2 htext] at herror
    cases herror
  refine ⟨(decode_iff_spells "0X C3\ta9 " "é").1.2 hspells, ?_, ?_,
    (decode_iff_spells "" "é").2.2.2 "0X" (.tail _ (.head _))⟩
  · have hnone := (decode_iff_spells "616" "").2.1 fun _ htext => hodd htext.1
    exact (hnone.resolve_right fun h => hodd h.1).2
  · have hnone := (decode_iff_spells "ed a0 80" "").2.1 hsurrogate
    exact (hnone.resolve_left fun h => h.1 hpairs).2

end HexDump

end SchemaTypes.Text
