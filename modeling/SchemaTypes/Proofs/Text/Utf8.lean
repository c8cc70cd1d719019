import SchemaTypes.Proofs.Text.HexDump

/-!
# What is read as UTF-8 is UTF-8

Strict reading accepts the bytes of a text and no others. A sequence is announced by its first
byte, and the limits of the second byte leave just the code points that need a sequence of that
length and are characters: no overlong form, no surrogate and nothing above the last code point.

## Main results

* `Utf8.eq_append_of_continueWith`: the bytes of one sequence.
* `Utf8.decode_eq_ok_iff`: bytes are read as a text if and only if they are its bytes.
-/

namespace SchemaTypes.Text.Utf8

/-- The bytes of a character by its code point. -/
theorem utf8EncodeChar_ofNat {v : Nat} (hvalid : v.isValidChar) :
    String.utf8EncodeChar (Char.ofNat v) =
      if v ≤ 0x7F then [UInt8.ofNat v]
      else if v ≤ 0x7FF then [UInt8.ofNat (v / 64 % 0x20 + 0xC0), UInt8.ofNat (v % 0x40 + 0x80)]
      else if v ≤ 0xFFFF then
        [UInt8.ofNat (v / 4096 % 0x10 + 0xE0), UInt8.ofNat (v / 64 % 0x40 + 0x80),
          UInt8.ofNat (v % 0x40 + 0x80)]
      else
        [UInt8.ofNat (v / 262144 % 0x08 + 0xF0), UInt8.ofNat (v / 4096 % 0x40 + 0x80),
          UInt8.ofNat (v / 64 % 0x40 + 0x80), UInt8.ofNat (v % 0x40 + 0x80)] := by
  have hval : (Char.ofNat v).val.toNat = v := by
    rw [Char.ofNat, dif_pos hvalid]
    rfl
  rw [String.utf8EncodeChar, hval]

/-- A byte that was taken to continue a sequence adds its six bits to the value. -/
theorem exists_of_continueWith_cons {range : Range} {ranges : List Range} {value result : Nat}
    {bytes rest : List UInt8} (hlow : 0x80 ≤ range.low.toNat) (hhigh : range.high.toNat ≤ 0xBF)
    (h : continueWith value (range :: ranges) bytes = .ok (result, rest)) :
    ∃ x tail, bytes = UInt8.ofNat (x + 0x80) :: tail ∧ x < 64 ∧ range.low.toNat ≤ x + 0x80 ∧
      x + 0x80 ≤ range.high.toNat ∧
        continueWith (value * 64 + x) ranges tail = .ok (result, rest) := by
  cases bytes with
  | nil => simp [continueWith] at h
  | cons b tail =>
    rw [continueWith] at h
    split at h
    · next hfits =>
      simp only [Range.contains, Bool.and_eq_true, decide_eq_true_eq,
        UInt8.le_iff_toNat_le] at hfits
      have hbyte : b.toNat - 0x80 + 0x80 = b.toNat := by omega
      refine ⟨b.toNat - 0x80, tail, ?_, by omega, by omega, by omega, ?_⟩
      · rw [hbyte, UInt8.ofNat_toNat]
      · cases hrest : continueWith (value * 64 + (b.toNat - 0x80)) ranges tail with
        | error failed => simp [hrest, Except.mapError] at h
        | ok found => simpa [hrest, Except.mapError] using h
    · simp at h

theorem eq_append_of_two {n value : Nat} {bytes rest : List UInt8} (hlow : 0xC2 ≤ n)
    (hhigh : n ≤ 0xDF) (h : continueWith (n - 0xC0) [tailByte] bytes = .ok (value, rest)) :
    UInt8.ofNat n :: bytes = String.utf8EncodeChar (Char.ofNat value) ++ rest := by
  obtain ⟨x, tail, rfl, hx, -, -, hrest⟩ := exists_of_continueWith_cons (by decide) (by decide) h
  cases hrest
  have hlead : ((n - 0xC0) * 64 + x) / 64 % 0x20 + 0xC0 = n := by omega
  have hsecond : ((n - 0xC0) * 64 + x) % 0x40 = x := by omega
  rw [utf8EncodeChar_ofNat (.inl (by omega)), if_neg (by omega), if_pos (by omega), hlead, hsecond]
  rfl

theorem eq_append_of_three {n value : Nat} {bytes rest : List UInt8} (hlow : 0xE0 ≤ n)
    (hhigh : n ≤ 0xEF)
    (h : continueWith (n - 0xE0)
      [⟨if n = 0xE0 then 0xA0 else 0x80, if n = 0xED then 0x9F else 0xBF⟩, tailByte] bytes =
        .ok (value, rest)) :
    UInt8.ofNat n :: bytes = String.utf8EncodeChar (Char.ofNat value) ++ rest := by
  obtain ⟨x, tail, rfl, hx, hxlow, hxhigh, hrest⟩ :=
    exists_of_continueWith_cons (by simp only; split <;> decide) (by simp only; split <;> decide) h
  obtain ⟨y, tail, rfl, hy, -, -, hrest⟩ :=
    exists_of_continueWith_cons (by decide) (by decide) hrest
  cases hrest
  have hfirst : n = 0xE0 → 0x20 ≤ x := by
    intro hn
    simp only [hn, if_true, UInt8.reduceToNat] at hxlow
    omega
  have hsurrogate : n = 0xED → x < 0x20 := by
    intro hn
    simp only [hn, if_true, UInt8.reduceToNat] at hxhigh
    omega
  clear h hxlow hxhigh
  have hvalid : Nat.isValidChar (((n - 0xE0) * 64 + x) * 64 + y) := by
    unfold Nat.isValidChar
    omega
  have hlead : (((n - 0xE0) * 64 + x) * 64 + y) / 4096 % 0x10 + 0xE0 = n := by omega
  have hsecond : (((n - 0xE0) * 64 + x) * 64 + y) / 64 % 0x40 = x := by omega
  have hthird : (((n - 0xE0) * 64 + x) * 64 + y) % 0x40 = y := by omega
  rw [utf8EncodeChar_ofNat hvalid, if_neg (by omega), if_neg (by omega), if_pos (by omega), hlead,
    hsecond, hthird]
  rfl

theorem eq_append_of_four {n value : Nat} {bytes rest : List UInt8} (hlow : 0xF0 ≤ n)
    (hhigh : n ≤ 0xF4)
    (h : continueWith (n - 0xF0)
      [⟨if n = 0xF0 then 0x90 else 0x80, if n = 0xF4 then 0x8F else 0xBF⟩, tailByte, tailByte]
        bytes = .ok (value, rest)) :
    UInt8.ofNat n :: bytes = String.utf8EncodeChar (Char.ofNat value) ++ rest := by
  obtain ⟨x, tail, rfl, hx, hxlow, hxhigh, hrest⟩ :=
    exists_of_continueWith_cons (by simp only; split <;> decide) (by simp only; split <;> decide) h
  obtain ⟨y, tail, rfl, hy, -, -, hrest⟩ :=
    exists_of_continueWith_cons (by decide) (by decide) hrest
  obtain ⟨z, tail, rfl, hz, -, -, hrest⟩ :=
    exists_of_continueWith_cons (by decide) (by decide) hrest
  cases hrest
  have hfirst : n = 0xF0 → 0x10 ≤ x := by
    intro hn
    simp only [hn, if_true, UInt8.reduceToNat] at hxlow
    omega
  have hlast : n = 0xF4 → x < 0x10 := by
    intro hn
    simp only [hn, if_true, UInt8.reduceToNat] at hxhigh
    omega
  clear h hxlow hxhigh
  have hvalid : Nat.isValidChar ((((n - 0xF0) * 64 + x) * 64 + y) * 64 + z) := by
    unfold Nat.isValidChar
    omega
  have hlead : ((((n - 0xF0) * 64 + x) * 64 + y) * 64 + z) / 262144 % 0x08 + 0xF0 = n := by omega
  have hsecond : ((((n - 0xF0) * 64 + x) * 64 + y) * 64 + z) / 4096 % 0x40 = x := by omega
  have hthird : ((((n - 0xF0) * 64 + x) * 64 + y) * 64 + z) / 64 % 0x40 = y := by omega
  have hfourth : ((((n - 0xF0) * 64 + x) * 64 + y) * 64 + z) % 0x40 = z := by omega
  rw [utf8EncodeChar_ofNat hvalid, if_neg (by omega), if_neg (by omega), if_neg (by omega), hlead,
    hsecond, hthird, hfourth]
  rfl

/-- The bytes of a sequence are those of the character that is read from it. -/
theorem eq_append_of_continueWith {lead : UInt8} {bytes rest : List UInt8} {form : Form}
    {value : Nat} (hform : Form.ofLead? lead = some form)
    (h : continueWith form.payload form.tail bytes = .ok (value, rest)) :
    lead :: bytes = String.utf8EncodeChar (Char.ofNat value) ++ rest := by
  obtain ⟨n, hn, rfl⟩ : ∃ n < 256, lead = UInt8.ofNat n :=
    ⟨lead.toNat, lead.toNat_lt, UInt8.ofNat_toNat.symm⟩
  by_cases hone : n ≤ 0x7F
  · rw [ofLead?_ofNat hn, if_pos hone] at hform
    cases hform
    cases h
    rw [utf8EncodeChar_ofNat (.inl (by simp only; omega)), if_pos hone]
    rfl
  by_cases hnone : n ≤ 0xC1 ∨ 0xF5 ≤ n
  · rw [ofLead?_ofNat hn] at hform
    exact absurd hform (by grind)
  by_cases htwo : n ≤ 0xDF
  · rw [ofLead?_two (by omega) htwo] at hform
    obtain rfl := Option.some.inj hform
    exact eq_append_of_two (by omega) htwo h
  by_cases hthree : n ≤ 0xEF
  · rw [ofLead?_three (by omega) hthree] at hform
    obtain rfl := Option.some.inj hform
    exact eq_append_of_three (by omega) hthree h
  · rw [ofLead?_four (by omega) (by omega)] at hform
    obtain rfl := Option.some.inj hform
    exact eq_append_of_four (by omega) (by omega) h

/-- What is read from bytes has these bytes. -/
theorem eq_encode_of_decodeFrom {position : Nat} {bytes : List UInt8} {text : List Char}
    (h : decodeFrom position bytes = .ok text) : bytes = encode text := by
  fun_induction decodeFrom position bytes generalizing text with
  | case1 =>
    cases h
    rfl
  | case2 => simp at h
  | case3 => simp at h
  | case4 position lead bytes form hform value rest hcontinue ih =>
    cases htail : decodeFrom (position + 1 + form.tail.length) rest with
    | error fault => simp [htail, Except.map] at h
    | ok tail =>
      rw [htail] at h
      cases h
      rw [eq_append_of_continueWith hform hcontinue, ih htail]
      rfl

/-- Strict decoding inverts encoding, and reads nothing else. -/
theorem decode_eq_ok_iff {bytes : List UInt8} {text : List Char} :
    decode bytes = .ok text ↔ bytes = encode text :=
  ⟨eq_encode_of_decodeFrom, fun h => h ▸ decode_encode text⟩

end SchemaTypes.Text.Utf8
