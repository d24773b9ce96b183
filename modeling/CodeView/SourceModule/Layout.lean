import CodeView.Bytes
import CodeView.SourceModule
import CodeView.Text.Lossy

/-!
# Layout of source modules

A source module is a header that points at file tables, which point at line tables. Every
offset counts from the first byte of the record.

    header       u16 number of files, u16 number of extents
                 u32 offset of each file table
                 (u32 first, u32 last) of each extent
                 u16 segment of each extent
    file table   u16 number of segments, u16 zero
                 u32 offset of each line table
                 (u32 first, u32 last) of each segment
                 u8 length of the name, the name
    line table   u16 segment, u16 number of pairs
                 u32 offset of each pair, u16 line of each pair

The tables may lie anywhere in the record and may overlap. For each part this module says what
is stored at a position, and when that part fits, which means that it ends at or before a limit
and that its fields agree with each other.
-/

namespace CodeView

/-- The pair of 32-bit integers at a position. -/
def rangeAt (source : ByteArray) (position : Nat) : UInt32 × UInt32 :=
  (wordAt UInt32 source position, wordAt UInt32 source (position + 4))

namespace LineTable

/-- Number of pairs of the line table at a position. -/
def pairsAt (source : ByteArray) (position : Nat) : Nat :=
  (wordAt UInt16 source (position + 2)).toNat

/-- The line table stored at a position, for the range that its file claims. -/
def stored (source : ByteArray) (position : Nat) (range : UInt32 × UInt32) : LineTable :=
  let pairs := pairsAt source position
  { segment := wordAt UInt16 source position
    first := range.1
    last := range.2
    offsets := Array.ofFn fun i : Fin pairs => wordAt UInt32 source (position + 4 + i * 4)
    lines := Array.ofFn fun i : Fin pairs =>
      wordAt UInt16 source (position + 4 + pairs * 4 + i * 2) }

/-- The line table at a position ends in time and is well formed. -/
structure Fits (source : ByteArray) (limit position : Nat) (range : UInt32 × UInt32) : Prop where
  head : position + 4 ≤ limit
  pairs : position + 4 + 6 * pairsAt source position ≤ limit
  wellFormed : (stored source position range).WellFormed

end LineTable

namespace SourceFile

/-- Number of line tables of the file table at a position. -/
def countAt (source : ByteArray) (position : Nat) : Nat :=
  (wordAt UInt16 source position).toNat

/-- Where line table `i` of the file table at a position lies. -/
def tablePlace (source : ByteArray) (base position i : Nat) : Nat :=
  base + (wordAt UInt32 source (position + 4 + i * 4)).toNat

/-- The range that the file table at a position claims for its line table `i`. -/
def rangeOf (source : ByteArray) (position i : Nat) : UInt32 × UInt32 :=
  rangeAt source (position + 4 + countAt source position * 4 + i * 8)

/-- Where the name in the file table at a position lies, beginning with its length. -/
def namePlace (source : ByteArray) (position : Nat) : Nat :=
  position + 4 + 12 * countAt source position

/-- The source file stored at a position. -/
def stored (source : ByteArray) (base position : Nat) : SourceFile :=
  let place := namePlace source position
  { name := Text.Lossy.decode (bytesAt source (place + 1) (byteAt source place).toNat)
    tables := (List.range (countAt source position)).map fun i =>
      LineTable.stored source (tablePlace source base position i) (rangeOf source position i) }

/-- The file table at a position ends in time, its reserved field is zero, and its line
tables fit. -/
structure Fits (source : ByteArray) (base limit position : Nat) : Prop where
  head : position + 4 ≤ limit
  reserved : wordAt UInt16 source (position + 2) = 0
  nameHead : namePlace source position + 1 ≤ limit
  name : namePlace source position + 1 + (byteAt source (namePlace source position)).toNat ≤ limit
  tables : ∀ i < countAt source position,
    LineTable.Fits source limit (tablePlace source base position i) (rangeOf source position i)

end SourceFile

namespace SourceModule

/-- Number of files of the record at a position. -/
def fileCountAt (source : ByteArray) (base : Nat) : Nat :=
  (wordAt UInt16 source base).toNat

/-- Number of extents of the record at a position. -/
def extentCountAt (source : ByteArray) (base : Nat) : Nat :=
  (wordAt UInt16 source (base + 2)).toNat

/-- Where file table `i` of the record at a position lies. -/
def filePlace (source : ByteArray) (base i : Nat) : Nat :=
  base + (wordAt UInt32 source (base + 4 + i * 4)).toNat

/-- Extent `i` of the record at a position. -/
def extentAt (source : ByteArray) (base i : Nat) : SegmentExtent :=
  let ranges := base + 4 + fileCountAt source base * 4
  let (first, last) := rangeAt source (ranges + i * 8)
  ⟨wordAt UInt16 source (ranges + extentCountAt source base * 8 + i * 2), first, last⟩

/-- The source module stored at a position. -/
def stored (source : ByteArray) (base : Nat) : SourceModule where
  extents := (List.range (extentCountAt source base)).map (extentAt source base)
  files := (List.range (fileCountAt source base)).map fun i =>
    SourceFile.stored source base (filePlace source base i)

/-- The record at a position ends in time, and its file tables fit. -/
structure Fits (source : ByteArray) (base limit : Nat) : Prop where
  head : base + 4 ≤ limit
  tables : base + 4 + 4 * fileCountAt source base + 10 * extentCountAt source base ≤ limit
  files : ∀ i < fileCountAt source base,
    SourceFile.Fits source base limit (filePlace source base i)

end SourceModule

end CodeView
