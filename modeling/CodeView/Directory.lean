import CodeView.Cursor
import CodeView.Kind

/-!
# Subsection directory

The fixed header and the array of entries that point at every subsection of a blob. The two
sizes that the header declares must be those of the layout, and the entries it counts must lie
in the bytes that are left.
-/

namespace CodeView

/-- The header before the entries. -/
structure DirectoryHeader where
  /-- declared length of the header -/
  headerSize : UInt16
  /-- declared length of an entry -/
  entrySize : UInt16
  /-- number of entries -/
  entryCount : UInt32
  /-- offset of a further directory; it is reported and never followed -/
  nextDirectory : UInt32
  /-- flags, none of them defined -/
  flags : UInt32
  deriving DecidableEq, Repr

namespace DirectoryHeader

/-- Length of the header in the layout. -/
def width : Nat := 16

/-- The header stored at a position. -/
def stored (source : ByteArray) (position : Nat) : DirectoryHeader where
  headerSize := wordAt UInt16 source position
  entrySize := wordAt UInt16 source (position + 2)
  entryCount := wordAt UInt32 source (position + 4)
  nextDirectory := wordAt UInt32 source (position + 8)
  flags := wordAt UInt32 source (position + 12)

/-- The bytes that store a header. -/
def bytes (h : DirectoryHeader) : List UInt8 :=
  wordBytes h.headerSize ++ wordBytes h.entrySize ++ wordBytes h.entryCount ++
    wordBytes h.nextDirectory ++ wordBytes h.flags

end DirectoryHeader

/-- Where a subsection lies and what it holds. -/
structure DirectoryEntry where
  /-- what the subsection holds -/
  kind : Kind
  /-- number of the module it belongs to, as stored -/
  moduleIndex : UInt16
  /-- where its content begins, counted from the base of the blob -/
  offset : UInt32
  /-- length of its content -/
  size : UInt32
  deriving DecidableEq, Repr

namespace DirectoryEntry

/-- Length of an entry in the layout. -/
def width : Nat := 12

/-- The module number that marks a subsection of no single module. -/
def noModule : UInt16 := 0xffff

/-- The module it belongs to, if it belongs to one. -/
def module? (e : DirectoryEntry) : Option UInt16 :=
  if e.moduleIndex = noModule then none else some e.moduleIndex

/-- The entry stored at a position. -/
def stored (source : ByteArray) (position : Nat) : DirectoryEntry where
  kind := Kind.ofTag (wordAt UInt16 source position)
  moduleIndex := wordAt UInt16 source (position + 2)
  offset := wordAt UInt32 source (position + 4)
  size := wordAt UInt32 source (position + 8)

/-- The bytes that store an entry. -/
def bytes (e : DirectoryEntry) : List UInt8 :=
  wordBytes e.kind.tag ++ wordBytes e.moduleIndex ++ wordBytes e.offset ++ wordBytes e.size

end DirectoryEntry

/-- A header and the entries it counts. -/
structure Directory where
  header : DirectoryHeader
  entries : List DirectoryEntry
  deriving DecidableEq, Repr

namespace Directory

/-- Reads a directory from the position on. The checks come in a fixed order: room for the
header, its own declared size, the declared size of an entry, room for the entries. -/
def read : Read Directory := do
  let available ← Read.remaining
  if available < DirectoryHeader.width then
    throw (.truncated "directory header" DirectoryHeader.width available)
  let header ← Read.fixed DirectoryHeader.width DirectoryHeader.stored
  if header.headerSize.toNat ≠ DirectoryHeader.width then
    throw (.layoutMismatch "header size" header.headerSize.toUInt32 (.ofNat DirectoryHeader.width))
  if header.entrySize.toNat ≠ DirectoryEntry.width then
    throw (.layoutMismatch "entry size" header.entrySize.toUInt32 (.ofNat DirectoryEntry.width))
  let count := header.entryCount.toNat
  let needed := count * DirectoryEntry.width
  let available ← Read.remaining
  if available < needed then
    throw (.truncated "directory entries" needed available)
  let entries ← Read.table count DirectoryEntry.width DirectoryEntry.stored
  return ⟨header, entries.toList⟩

end Directory

end CodeView
