import CodeView.Bytes
import CodeView.SourceModule
import CodeView.Text.Lossy

/-!
# Writing source modules

The plainest record for a list of source files: the header, then each file table with its line
tables behind it, in order and with nothing shared. Every table begins at a multiple of four.
-/

namespace CodeView

namespace LineTable

/-- The line table as it is stored. -/
def bytes (t : LineTable) : List UInt8 :=
  aligned (wordBytes t.segment ++ wordBytes (UInt16.ofNat t.offsets.size) ++
    t.offsets.toList.flatMap wordBytes ++ t.lines.toList.flatMap wordBytes)

/-- The range of the line table as it is stored. -/
def rangeBytes (t : LineTable) : List UInt8 :=
  wordBytes t.first ++ wordBytes t.last

/-- The code that the line table claims. -/
def extent (t : LineTable) : SegmentExtent :=
  ⟨t.segment, t.first, t.last⟩

end LineTable

/-- Offsets as they are stored. -/
def offsetBytes (offsets : List Nat) : List UInt8 :=
  offsets.flatMap fun offset => wordBytes (UInt32.ofNat offset)

namespace SourceFile

/-- Length of the file table, without the line tables. -/
def headLength (f : SourceFile) : Nat :=
  alignUp (4 + 12 * f.tables.length + (prefixedBytes (Text.Lossy.encode f.name)).length)

/-- The file table as it is stored, with its line tables at the given offsets. -/
def headBytes (f : SourceFile) (tableOffsets : List Nat) : List UInt8 :=
  aligned (wordBytes (UInt16.ofNat f.tables.length) ++ wordBytes (0 : UInt16) ++
    offsetBytes tableOffsets ++ f.tables.flatMap LineTable.rangeBytes ++
    prefixedBytes (Text.Lossy.encode f.name))

/-- The line tables as they are stored. -/
def tableBytes (f : SourceFile) : List (List UInt8) :=
  f.tables.map LineTable.bytes

/-- The file table and its line tables, stored from `start` on. -/
def bytes (start : Nat) (f : SourceFile) : List UInt8 :=
  f.headBytes (starts (start + f.headLength) (f.tableBytes.map List.length)) ++ f.tableBytes.flatten

/-- Length of the file table and its line tables. -/
def length (f : SourceFile) : Nat :=
  f.headLength + f.tableBytes.flatten.length

end SourceFile

namespace SourceModule

/-- The source module of a list of files, which claims the code that their line tables claim. -/
def ofFiles (files : List SourceFile) : SourceModule where
  extents := files.flatMap fun f => f.tables.map LineTable.extent
  files := files

/-- Length of the header, file offsets and extents. -/
def headLength (files : List SourceFile) : Nat :=
  alignUp (4 + 4 * files.length + 10 * (files.flatMap (·.tables)).length)

/-- The header, with the file tables at the given offsets, and the extents. -/
def headBytes (files : List SourceFile) (fileOffsets : List Nat) : List UInt8 :=
  let tables := files.flatMap (·.tables)
  aligned (wordBytes (UInt16.ofNat files.length) ++ wordBytes (UInt16.ofNat tables.length) ++
    offsetBytes fileOffsets ++ tables.flatMap LineTable.rangeBytes ++
    tables.flatMap fun t => wordBytes t.segment)

/-- The record of a list of files. -/
def bytesOfFiles (files : List SourceFile) : List UInt8 :=
  let fileOffsets := starts (headLength files) (files.map (·.length))
  headBytes files fileOffsets ++ (fileOffsets.zipWith SourceFile.bytes files).flatten

end SourceModule

end CodeView
