import CodeView.Text.Lossy

/-!
# Names that are valid UTF-8

Bytes that encode a text lose nothing: `decode_encode` says that no replacement is made in them.
The bytes are taken character by character, and behind each character no sequence is in
progress. Bytes of any other kind give a text too, and only no bytes give the empty one.
-/

namespace CodeView.Text.Lossy

/-! ## One byte -/

section Step

variable (text : String) {n : Nat}

theorem toNat_byte (hn : n < 256) : (UInt8.ofNat n).toNat = n :=
  UInt8.toNat_ofNat_of_lt' hn

theorem step_one (hn : n < 0x80) :
    step (text, none) (UInt8.ofNat n) = (text.push (Char.ofNat n), none) := by
  have hb : (UInt8.ofNat n).toNat = n := toNat_byte (by omega)
  simp only [step, begin, hb, if_pos hn]

theorem step_two (hlower : 0xc2 ≤ n) (hupper : n < 0xe0) :
    step (text, none) (UInt8.ofNat n) = (text, some ⟨n % 0x20, 0, 0x80, 0xbf⟩) := by
  have hb : (UInt8.ofNat n).toNat = n := toNat_byte (by omega)
  simp only [step, begin, hb]
  rw [if_neg (by omega), if_neg (by omega), if_pos hupper]

theorem step_three (hlower : 0xe0 ≤ n) (hupper : n < 0xf0) :
    step (text, none) (UInt8.ofNat n) = (text, some ⟨n % 0x10, 1,
      if n = 0xe0 then 0xa0 else 0x80, if n = 0xed then 0x9f else 0xbf⟩) := by
  have hb : (UInt8.ofNat n).toNat = n := toNat_byte (by omega)
  simp only [step, begin, hb]
  rw [if_neg (by omega), if_neg (by omega), if_neg (by omega), if_pos hupper]

theorem step_four (hlower : 0xf0 ≤ n) (hupper : n < 0xf5) :
    step (text, none) (UInt8.ofNat n) = (text, some ⟨n % 0x08, 2,
      if n = 0xf0 then 0x90 else 0x80, if n = 0xf4 then 0x8f else 0xbf⟩) := by
  have hb : (UInt8.ofNat n).toNat = n := toNat_byte (by omega)
  simp only [step, begin, hb]
  rw [if_neg (by omega), if_neg (by omega), if_neg (by omega), if_neg (by omega), if_pos hupper]

variable {code more : Nat} {lower upper : UInt8}

theorem between (hn : n < 256) (hlower : lower.toNat ≤ n) (hupper : n ≤ upper.toNat) :
    lower ≤ UInt8.ofNat n ∧ UInt8.ofNat n ≤ upper := by
  rw [UInt8.le_iff_toNat_le, UInt8.le_iff_toNat_le, toNat_byte hn]
  exact ⟨hlower, hupper⟩

theorem step_more (hn : n < 256) (hlower : lower.toNat ≤ n) (hupper : n ≤ upper.toNat) :
    step (text, some ⟨code, more + 1, lower, upper⟩) (UInt8.ofNat n) =
      (text, some ⟨code * 0x40 + n % 0x40, more, 0x80, 0xbf⟩) := by
  simp only [step, if_pos (between hn hlower hupper), toNat_byte hn]

/-- A byte with six bits of a character is between the usual bounds. -/
theorem bits_between (bits : Nat) :
    (0x80 : UInt8).toNat ≤ bits % 64 + 128 ∧ bits % 64 + 128 ≤ (0xbf : UInt8).toNat ∧
      (bits % 64 + 128) % 0x40 = bits % 64 := by
  show 128 ≤ _ ∧ _ ≤ 191 ∧ _
  omega

theorem step_last (bits : Nat) :
    step (text, some ⟨code, 0, 0x80, 0xbf⟩) (UInt8.ofNat (bits % 64 + 128)) =
      (text.push (Char.ofNat (code * 0x40 + bits % 64)), none) := by
  obtain ⟨hlower, hupper, hbits⟩ := bits_between bits
  have hn : bits % 64 + 128 < 256 := by omega
  simp only [step, if_pos (between hn hlower hupper), toNat_byte hn, hbits]

theorem step_more_bits (bits : Nat) :
    step (text, some ⟨code, more + 1, 0x80, 0xbf⟩) (UInt8.ofNat (bits % 64 + 128)) =
      (text, some ⟨code * 0x40 + bits % 64, more, 0x80, 0xbf⟩) := by
  obtain ⟨hlower, hupper, hbits⟩ := bits_between bits
  rw [step_more text (by omega) hlower hupper, hbits]

end Step

/-! ## One character -/

section Character

variable (text : String) {v : Nat}

theorem foldl_two (hlower : 0x80 ≤ v) (hupper : v < 0x800) :
    [UInt8.ofNat (v / 64 % 32 + 192), UInt8.ofNat (v % 64 + 128)].foldl step (text, none) =
      (text.push (Char.ofNat v), none) := by
  have hcode : (v / 64 % 32 + 192) % 0x20 * 0x40 + v % 64 = v := by omega
  simp only [List.foldl_cons, List.foldl_nil]
  rw [step_two text (by omega) (by omega), step_last, hcode]

theorem foldl_three (hlower : 0x800 ≤ v) (hupper : v < 0x10000)
    (hvalid : v < 0xd800 ∨ 0xe000 ≤ v) :
    [UInt8.ofNat (v / 4096 % 16 + 224), UInt8.ofNat (v / 64 % 64 + 128),
        UInt8.ofNat (v % 64 + 128)].foldl step (text, none) =
      (text.push (Char.ofNat v), none) := by
  have hcode : ((v / 4096 % 16 + 224) % 0x10 * 0x40 + (v / 64 % 64 + 128) % 0x40) * 0x40 +
      v % 64 = v := by omega
  simp only [List.foldl_cons, List.foldl_nil]
  rw [step_three text (by omega) (by omega), step_more text (by omega) _ _, step_last, hcode]
  -- behind `e0` an overlong form would be below the bound
  · split
    · show 160 ≤ _
      omega
    · show 128 ≤ _
      omega
  -- behind `ed` a surrogate would be above it
  · split
    · show _ ≤ 159
      omega
    · show _ ≤ 191
      omega

theorem foldl_four (hlower : 0x10000 ≤ v) (hupper : v < 0x110000) :
    [UInt8.ofNat (v / 262144 % 8 + 240), UInt8.ofNat (v / 4096 % 64 + 128),
        UInt8.ofNat (v / 64 % 64 + 128), UInt8.ofNat (v % 64 + 128)].foldl step (text, none) =
      (text.push (Char.ofNat v), none) := by
  have hcode : (((v / 262144 % 8 + 240) % 0x08 * 0x40 + (v / 4096 % 64 + 128) % 0x40) * 0x40 +
      v / 64 % 64) * 0x40 + v % 64 = v := by omega
  simp only [List.foldl_cons, List.foldl_nil]
  rw [step_four text (by omega) (by omega), step_more text (by omega) _ _, step_more_bits,
    step_last, hcode]
  -- `f0` bounds against overlong forms, `f4` against numbers past the last character
  · split
    · show 144 ≤ _
      omega
    · show 128 ≤ _
      omega
  · split
    · show _ ≤ 143
      omega
    · show _ ≤ 191
      omega

/-- The bytes of a character add it to the text. -/
theorem foldl_step_char (c : Char) :
    (String.utf8EncodeChar c).foldl step (text, none) = (text.push c, none) := by
  have hvalid : c.toNat < 0xd800 ∨ 0xdfff < c.toNat ∧ c.toNat < 0x110000 := c.valid
  have hchar : text.push c = text.push (Char.ofNat c.toNat) := by rw [Char.ofNat_toNat]
  rw [hchar]
  simp only [String.utf8EncodeChar, Char.toNat_val]
  split
  · exact step_one text (by omega)
  · split
    · exact foldl_two text (by omega) (by omega)
    · split
      · exact foldl_three text (by omega) (by omega) (by omega)
      · exact foldl_four text (by omega) (by omega)

end Character

/-! ## A text -/

theorem foldl_step_chars (chars : List Char) (text : String) :
    (chars.flatMap String.utf8EncodeChar).foldl step (text, none) =
      (text ++ String.ofList chars, none) := by
  induction chars generalizing text with
  | nil => simp
  | cons c rest ih =>
    rw [List.flatMap_cons, List.foldl_append, foldl_step_char, ih]
    congr 1
    rw [String.ext_iff]
    simp

/-- Reading the bytes of a text gives the text back. -/
theorem decode_encode (text : String) : decode (encode text) = text := by
  rw [decode, encode, foldl_step_chars]
  simp [finish]

/-- The bytes of a name are its text in UTF-8. -/
theorem toByteArray_encode (text : String) : (encode text).toByteArray = text.toUTF8 := by
  have h : text.toList.utf8Encode = text.toByteArray := by
    rw [← String.toByteArray_ofList, String.ofList_toList]
  rw [String.toUTF8_eq_toByteArray, ← h]
  rfl

theorem length_encode (text : String) : (encode text).length = text.utf8ByteSize := by
  rw [← String.size_toByteArray, ← String.toUTF8_eq_toByteArray, ← toByteArray_encode,
    List.size_toByteArray]

/-! ## Bytes of any kind -/

theorem finish_begin_ne_empty (text : String) (b : UInt8) : finish (begin text b) ≠ "" := by
  simp only [begin]
  repeat' split
  all_goals simp [finish]

/-- Behind a byte there is a character, or a sequence that ends as one. -/
theorem finish_step_ne_empty (s : State) (b : UInt8) : finish (step s b) ≠ "" := by
  obtain ⟨text, part?⟩ := s
  cases part? with
  | none => exact finish_begin_ne_empty text b
  | some part =>
    simp only [step]
    split
    · split
      · simp [finish]
      · simp [finish]
    · exact finish_begin_ne_empty _ b

theorem decode_eq_empty_iff {bytes : List UInt8} : decode bytes = "" ↔ bytes = [] := by
  constructor
  · intro h
    obtain rfl | ⟨before, b, rfl⟩ := List.eq_nil_or_concat bytes
    · rfl
    · rw [decode, List.concat_eq_append, List.foldl_append] at h
      exact absurd h (finish_step_ne_empty _ b)
  · rintro rfl
    rfl

end CodeView.Text.Lossy
