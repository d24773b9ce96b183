/-!
# Bytes

The byte at a position of a source, the little-endian integers that begin at a position, and
the same integers written out as bytes. Written records are filled up with zeros to multiples of
four.
-/

namespace CodeView

/-- The byte at `position`. Readers check their bounds first; outside the source it is zero. -/
def byteAt (source : ByteArray) (position : Nat) : UInt8 :=
  if h : position < source.size then source[position] else 0

/-- The bytes at the `length` positions from `position` on. -/
def bytesAt (source : ByteArray) (position length : Nat) : List UInt8 :=
  List.ofFn fun i : Fin length => byteAt source (position + i)

@[simp] theorem length_bytesAt (source : ByteArray) (position length : Nat) :
    (bytesAt source position length).length = length := by
  simp [bytesAt]

/-- The number stored in `width` bytes from `position` on, least significant byte first. -/
def natAt (source : ByteArray) (position : Nat) : (width : Nat) → Nat
  | 0 => 0
  | width + 1 => (byteAt source position).toNat + 256 * natAt source (position + 1) width

/-- The number in `width` bytes, least significant byte first; higher digits are dropped. -/
def natBytes (n : Nat) : (width : Nat) → List UInt8
  | 0 => []
  | width + 1 => UInt8.ofNat n :: natBytes (n / 256) width

@[simp] theorem length_natBytes (n width : Nat) : (natBytes n width).length = width := by
  induction width generalizing n with
  | zero => rfl
  | succ width ih => simp [natBytes, ih]

/-- An unsigned integer type of fixed width, stored least significant byte first. -/
class Word (α : Type) where
  /-- number of bytes that a value takes -/
  width : Nat
  /-- the value with this number, reduced to the width -/
  ofNat : Nat → α
  /-- the number of a value -/
  toNat : α → Nat

instance : Word UInt8 := ⟨1, UInt8.ofNat, UInt8.toNat⟩
instance : Word UInt16 := ⟨2, UInt16.ofNat, UInt16.toNat⟩
instance : Word UInt32 := ⟨4, UInt32.ofNat, UInt32.toNat⟩
instance : Word UInt64 := ⟨8, UInt64.ofNat, UInt64.toNat⟩

/-- The integer stored at `position`. -/
def wordAt (α : Type) [Word α] (source : ByteArray) (position : Nat) : α :=
  Word.ofNat (natAt source position (Word.width α))

/-- The bytes that store an integer. -/
def wordBytes {α : Type} [Word α] (value : α) : List UInt8 :=
  natBytes (Word.toNat value) (Word.width α)

@[simp] theorem length_wordBytes {α : Type} [Word α] (value : α) :
    (wordBytes value).length = Word.width α :=
  length_natBytes _ _

/-- The first multiple of four that is not below `n`. -/
def alignUp (n : Nat) : Nat :=
  (n + 3) / 4 * 4

theorem le_alignUp (n : Nat) : n ≤ alignUp n := by
  unfold alignUp
  omega

@[simp] theorem alignUp_mod_four (n : Nat) : alignUp n % 4 = 0 := by
  simp [alignUp]

/-- The zeros from `position` to the next multiple of four. -/
def padding (position : Nat) : List UInt8 :=
  List.replicate (alignUp position - position) 0

/-- Bytes filled up with zeros to a multiple of four. -/
def aligned (bytes : List UInt8) : List UInt8 :=
  bytes ++ padding bytes.length

@[simp] theorem length_aligned (bytes : List UInt8) :
    (aligned bytes).length = alignUp bytes.length := by
  have := le_alignUp bytes.length
  simp [aligned, padding]
  omega

/-- Where parts of the given lengths begin if they follow each other from `start` on. -/
def starts (start : Nat) : (lengths : List Nat) → List Nat
  | [] => []
  | length :: rest => start :: starts (start + length) rest

@[simp] theorem length_starts (start : Nat) (lengths : List Nat) :
    (starts start lengths).length = lengths.length := by
  induction lengths generalizing start with
  | nil => rfl
  | cons length rest ih => simp [starts, ih]

/-- Bytes after one byte that counts them. -/
def prefixedBytes (bytes : List UInt8) : List UInt8 :=
  UInt8.ofNat bytes.length :: bytes

/-- Bytes before one zero byte. -/
def terminatedBytes (bytes : List UInt8) : List UInt8 :=
  bytes ++ [0]

end CodeView
