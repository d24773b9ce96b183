import CodeView.Bytes
import CodeView.FormatError
import CodeView.Text.Lossy

/-!
# Cursor

A read position in a byte source, confined to a window of it. Positions are absolute, so a
report can name the offending byte whatever window was in force. A read is checked before it
is made: what leaves the window is refused and the cursor stays where it was.

Positions are numbers without bound; the only places where the range of a 64-bit position can
be seen are `Read.seekFrom` and `Read.ensure`.
-/

namespace CodeView

/-- A position within the window `start ..< limit` of a byte source. -/
structure Cursor where
  /-- the whole byte source -/
  source : ByteArray
  /-- where the window begins -/
  start : Nat
  /-- one past the end of the window -/
  limit : Nat
  /-- the next byte to be read -/
  pos : Nat

namespace Cursor

/-- The largest position that can be named. -/
def maxPosition : Nat := UInt64.size - 1

/-- A cursor at the start of a whole source. -/
def ofBytes (source : ByteArray) : Cursor :=
  ⟨source, 0, source.size, 0⟩

/-- Number of bytes from the position to the end of the window. -/
def remaining (c : Cursor) : Nat :=
  c.limit - c.pos

/-- The window lies in the source and the position lies in the window. -/
def Inside (c : Cursor) : Prop :=
  c.start ≤ c.pos ∧ c.pos ≤ c.limit ∧ c.limit ≤ c.source.size

instance (c : Cursor) : Decidable c.Inside :=
  inferInstanceAs (Decidable (_ ∧ _ ∧ _))

/-- A cursor at the start of the `length` bytes from `start` on, over the same source. -/
def window (c : Cursor) (start length : Nat) (what : String) : Except FormatError Cursor :=
  if start + length ≤ c.source.size then .ok ⟨c.source, start, start + length, start⟩
  else .error (.truncated what length (c.source.size - start))

theorem inside_ofBytes (source : ByteArray) : (ofBytes source).Inside := by
  simp [Inside, ofBytes]

end Cursor

/-- A computation that moves a cursor. After a failure the cursor tells how far it came. -/
abbrev Read := EStateM FormatError Cursor

namespace Read

/-- The current position. -/
def position : Read Nat := fun c => .ok c.pos c

/-- The number of bytes left in the window. -/
def remaining : Read Nat := fun c => .ok c.remaining c

/-- Moves to a position of the window; its end is allowed. -/
def seek (target : Nat) : Read Unit := fun c =>
  if c.start ≤ target ∧ target ≤ c.limit then .ok () { c with pos := target }
  else .error (.outOfBounds target 0 c.limit) c

/-- Moves to `base + offset`. A target that no position can name is reported at `base`. -/
def seekFrom (base : Nat) (offset : UInt32) : Read Unit := fun c =>
  if base + offset.toNat ≤ Cursor.maxPosition then seek (base + offset.toNat) c
  else .error (.outOfBounds base 0 c.limit) c

/-- Checks that `count` items of `size` bytes are left, before a count from the input drives
any work. A total that no position can name is reported as the largest one. -/
def ensure (count size : Nat) : Read Unit := fun c =>
  let length := min (count * size) Cursor.maxPosition
  if length ≤ c.remaining then .ok () c
  else .error (.outOfBounds c.pos length c.limit) c

/-- Reads the value of the next `length` bytes, which `value` finds in the source. -/
def fixed {α : Type} (length : Nat) (value : ByteArray → Nat → α) : Read α := fun c =>
  if c.pos + length ≤ c.limit then .ok (value c.source c.pos) { c with pos := c.pos + length }
  else .error (.outOfBounds c.pos length c.limit) c

/-- Reads raw bytes. -/
def bytes (length : Nat) : Read (List UInt8) :=
  fixed length fun source pos => bytesAt source pos length

/-- Reads one integer. -/
def word (α : Type) [Word α] : Read α :=
  fixed (Word.width α) (wordAt α)

/-- Reads `count` items of `size` bytes each, all of them or none. -/
def table {α : Type} (count size : Nat) (item : ByteArray → Nat → α) : Read (Array α) := do
  ensure count size
  fixed (count * size) fun source pos =>
    Array.ofFn fun i : Fin count => item source (pos + i * size)

/-- Reads `count` consecutive integers. -/
def words (α : Type) [Word α] (count : Nat) : Read (Array α) :=
  table count (Word.width α) (wordAt α)

/-- Reads a name stored as one length byte and that many bytes. Where the name does not fit,
its length byte has been read. -/
def prefixedName : Read String := do
  let length ← word UInt8
  let name ← bytes length.toNat
  return Text.Lossy.decode name

/-- The position of the first zero among the `count` bytes from `position` on. -/
def findZero (source : ByteArray) (position : Nat) : (count : Nat) → Option Nat
  | 0 => none
  | count + 1 =>
    if byteAt source position = 0 then some position else findZero source (position + 1) count

/-- Reads a name that ends before a zero byte, and that byte. Without one in the window nothing
is read, and the report asks for one byte more than there are. -/
def terminatedName : Read String := fun c =>
  match findZero c.source c.pos c.remaining with
  | some stop =>
    .ok (Text.Lossy.decode (bytesAt c.source c.pos (stop - c.pos))) { c with pos := stop + 1 }
  | none => .error (.outOfBounds c.pos (c.remaining + 1) c.limit) c

end Read

end CodeView
