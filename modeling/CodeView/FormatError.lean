import CodeView.Text.Number

/-!
# Format errors

What can be wrong with the bytes of a CodeView blob, one constructor a cause, and the one
sentence that reports each. Positions are absolute in the byte source.
-/

namespace CodeView

open Text (hex hexWide)

/-- A structural problem in a CodeView blob. -/
inductive FormatError
  /-- the four bytes at the base are not a known signature -/
  | badSignature (found : Vector UInt8 4) (position : Nat)
  /-- a declared count or size needs more bytes than the source has left -/
  | truncated (what : String) (needed available : Nat)
  /-- a read of `length` bytes, or a seek, leaves the window that ends at `limit` -/
  | outOfBounds (position length limit : Nat)
  /-- a field that must be zero is not -/
  | badPadding (position : Nat) (value : UInt16)
  /-- a size field of the directory header is not that of the fixed layout -/
  | layoutMismatch (field : String) (declared expected : UInt32)
  /-- the offset at `index` of a line table is smaller than the one before it -/
  | nonMonotonicOffsets (segment : UInt16) (index : Nat)
  /-- a code range begins after its end -/
  | invertedRange (segment : UInt16) (first last : UInt32)
  /-- a line table has as many offsets as `offsets` but as many lines as `lines` -/
  | lineCountMismatch (segment : UInt16) (offsets lines : Nat)
  deriving DecidableEq, Repr

namespace FormatError

/-- The sentence that reports the error. -/
def message : FormatError → String
  | badSignature found position =>
    let bytes := ", ".intercalate (found.toList.map toString)
    s!"Bad CodeView signature [{bytes}] at position {hex position}, expected \"NB09\" or \"NB11\""
  | truncated what needed available =>
    s!"Truncated {what}: need {needed} bytes, only {available} available"
  | outOfBounds position length limit =>
    s!"Read of {length} bytes at position {hex position} crosses subsection limit {hex limit}"
  | badPadding position value =>
    s!"Non-zero padding {hexWide 4 value.toNat} at position {hex position}"
  | layoutMismatch field declared expected =>
    s!"Directory {field} is {declared}, expected {expected}"
  | nonMonotonicOffsets segment index =>
    s!"Line table for segment {segment} is not sorted: offset at index {index} decreases"
  | invertedRange segment first last =>
    s!"Segment {segment} range is inverted: start {hex first.toNat} > end {hex last.toNat}"
  | lineCountMismatch segment offsets lines =>
    s!"Line table for segment {segment} has {offsets} offsets but {lines} line numbers"

/-- The same error in a source whose bytes lie `distance` further on: every absolute position
moves along, and counts stay. -/
def shift (distance : Nat) : FormatError → FormatError
  | badSignature found position => badSignature found (position + distance)
  | outOfBounds position length limit => outOfBounds (position + distance) length (limit + distance)
  | badPadding position value => badPadding (position + distance) value
  | error => error

end FormatError

end CodeView
