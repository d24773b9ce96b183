import CodeView.Cursor

/-!
# Module descriptors

The description of one object module: where its code went, segment by segment, and its name.
-/

namespace CodeView

/-- Code that a module put into one segment. -/
structure ModuleSegment where
  /-- number of the segment -/
  segment : UInt16
  /-- offset of the first byte in the segment -/
  offset : UInt32
  /-- number of bytes -/
  size : UInt32
  deriving DecidableEq, Repr

namespace ModuleSegment

/-- Length of a descriptor in the layout: the segment, a field that is zero, offset and size. -/
def width : Nat := 12

/-- The descriptor stored at a position. -/
def stored (source : ByteArray) (position : Nat) : ModuleSegment where
  segment := wordAt UInt16 source position
  offset := wordAt UInt32 source (position + 4)
  size := wordAt UInt32 source (position + 8)

end ModuleSegment

/-- One object module. -/
structure ModuleInfo where
  /-- number of the overlay -/
  overlay : UInt16
  /-- place in the library list, counted from one; zero for none -/
  libraryIndex : UInt16
  /-- tag of the debugging style -/
  style : UInt16
  /-- the code it contributed -/
  segments : List ModuleSegment
  /-- name of the object file -/
  name : String
  deriving DecidableEq, Repr

namespace ModuleInfo

/-- Where the reserved fields of `count` segments from `start` on lie, two bytes into each. -/
def reservedPlaces (start count : Nat) : List Nat :=
  (List.range count).map fun i => start + i * ModuleSegment.width + 2

/-- The first of the places whose field is not zero. -/
def firstNonzero? (source : ByteArray) (places : List Nat) : Option Nat :=
  places.find? fun place => wordAt UInt16 source place ≠ 0

/-- Reads a module descriptor. All descriptors of segments must fit before any of their
reserved fields is looked at; the first of these that is not zero is reported, with the cursor
just behind it. -/
def read : Read ModuleInfo := do
  let overlay ← Read.word UInt16
  let libraryIndex ← Read.word UInt16
  let count := (← Read.word UInt16).toNat
  let style ← Read.word UInt16
  Read.ensure count ModuleSegment.width
  let start ← Read.position
  let source := (← get).source
  match firstNonzero? source (reservedPlaces start count) with
  | some place =>
    Read.seek (place + 2)
    throw (.badPadding place (wordAt UInt16 source place))
  | none =>
    let segments ← Read.table count ModuleSegment.width ModuleSegment.stored
    let name ← Read.prefixedName
    return ⟨overlay, libraryIndex, style, segments.toList, name⟩

end ModuleInfo

end CodeView
