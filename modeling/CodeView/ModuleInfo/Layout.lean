import CodeView.ModuleInfo

/-!
# Layout of module descriptors

    header       u16 overlay, u16 library, u16 number of segments, u16 style
    segment      u16 segment, u16 zero, u32 offset, u32 size
    name         u8 length of the name, the name

What follows the name does not belong to the descriptor.
-/

namespace CodeView.ModuleInfo

/-- Number of segments of the descriptor at a position. -/
def countAt (source : ByteArray) (base : Nat) : Nat :=
  (wordAt UInt16 source (base + 4)).toNat

/-- Where segment `i` of the descriptor at a position lies. -/
def segmentPlace (base i : Nat) : Nat :=
  base + 8 + i * ModuleSegment.width

/-- Where the name of the descriptor at a position lies, beginning with its length. -/
def namePlace (source : ByteArray) (base : Nat) : Nat :=
  segmentPlace base (countAt source base)

/-- The descriptor stored at a position. -/
def stored (source : ByteArray) (base : Nat) : ModuleInfo :=
  let place := namePlace source base
  { overlay := wordAt UInt16 source base
    libraryIndex := wordAt UInt16 source (base + 2)
    style := wordAt UInt16 source (base + 6)
    segments := (List.range (countAt source base)).map fun i =>
      ModuleSegment.stored source (segmentPlace base i)
    name := Text.Lossy.decode (bytesAt source (place + 1) (byteAt source place).toNat) }

/-- The descriptor at a position ends at or before the limit, and its reserved fields are
zero. -/
structure Fits (source : ByteArray) (base limit : Nat) : Prop where
  head : base + 8 ≤ limit
  nameHead : namePlace source base < limit
  reserved : ∀ i < countAt source base, wordAt UInt16 source (segmentPlace base i + 2) = 0
  name : namePlace source base + 1 + (byteAt source (namePlace source base)).toNat ≤ limit

end CodeView.ModuleInfo
