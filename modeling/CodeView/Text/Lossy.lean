/-!
# Names from bytes

Names are stored as bytes in no declared encoding. They are read as UTF-8, and what is not
UTF-8 is replaced instead of being refused: each maximal part that begins a sequence without
completing it becomes one U+FFFD, and so does each byte that cannot begin one.
-/

namespace CodeView.Text.Lossy

/-- A sequence that has begun and still waits for continuation bytes. -/
structure Pending where
  /-- the bits of the code point read so far -/
  code : Nat
  /-- the number of continuation bytes still to come, less one -/
  more : Nat
  /-- the least byte that continues the sequence -/
  lower : UInt8
  /-- the greatest byte that continues the sequence -/
  upper : UInt8
  deriving DecidableEq, Repr

/-- The character that stands for a part that is not UTF-8. -/
def replacement : Char := '\uFFFD'

/-- A text and the sequence in progress at its end. -/
abbrev State := String × Option Pending

/-- Takes a byte where no sequence is in progress. The bounds on the second byte exclude
overlong forms, surrogates and values above U+10FFFF. -/
def begin (text : String) (b : UInt8) : State :=
  let n := b.toNat
  if n < 0x80 then (text.push (Char.ofNat n), none)
  else if n < 0xc2 then (text.push replacement, none)
  else if n < 0xe0 then (text, some ⟨n % 0x20, 0, 0x80, 0xbf⟩)
  else if n < 0xf0 then
    (text, some ⟨n % 0x10, 1, if n = 0xe0 then 0xa0 else 0x80, if n = 0xed then 0x9f else 0xbf⟩)
  else if n < 0xf5 then
    (text, some ⟨n % 0x08, 2, if n = 0xf0 then 0x90 else 0x80, if n = 0xf4 then 0x8f else 0xbf⟩)
  else (text.push replacement, none)

/-- Takes one byte. A byte that does not continue the sequence in progress ends it as a
replacement and is then taken afresh. -/
def step : State → UInt8 → State
  | (text, none), b => begin text b
  | (text, some part), b =>
    if part.lower ≤ b ∧ b ≤ part.upper then
      let code := part.code * 0x40 + b.toNat % 0x40
      match part.more with
      | 0 => (text.push (Char.ofNat code), none)
      | more + 1 => (text, some ⟨code, more, 0x80, 0xbf⟩)
    else begin (text.push replacement) b

/-- Ends the text; a sequence still in progress becomes a replacement. -/
def finish : State → String
  | (text, none) => text
  | (text, some _) => text.push replacement

/-- The text of a name's bytes. -/
def decode (bytes : List UInt8) : String :=
  finish (bytes.foldl step ("", none))

/-- The bytes of a name: its text in UTF-8. -/
def encode (text : String) : List UInt8 :=
  text.toList.flatMap String.utf8EncodeChar

end CodeView.Text.Lossy
