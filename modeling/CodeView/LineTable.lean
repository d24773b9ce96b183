import CodeView.FormatError

/-!
# Line tables

The line table of one file within one segment: code offsets that never decrease, the line that
begins at each of them, and the range of code that the file claims there. `ofParts` is the only
way in which the library makes one, and it refuses whatever is not `WellFormed`.
-/

namespace CodeView

/-- A range of code and the lines within it. -/
structure LineTable where
  /-- number of the segment -/
  segment : UInt16
  /-- first byte of the claimed range -/
  first : UInt32
  /-- last byte of the claimed range -/
  last : UInt32
  /-- code offsets -/
  offsets : Array UInt32
  /-- the line that begins at each offset -/
  lines : Array UInt16
  deriving DecidableEq, Repr

namespace LineTable

/-- As many lines as offsets, a range that does not end before it begins, and offsets that
never decrease. -/
structure WellFormed (t : LineTable) : Prop where
  paired : t.lines.size = t.offsets.size
  ordered : t.first ≤ t.last
  sorted : ∀ i j, i ≤ j → j < t.offsets.size → t.offsets.getD i 0 ≤ t.offsets.getD j 0

/-- The first index whose offset is smaller than the one before it. -/
def firstDecrease? (offsets : Array UInt32) : Option Nat :=
  ((List.range (offsets.size - 1)).find? fun i =>
    offsets.getD (i + 1) 0 < offsets.getD i 0).map (· + 1)

/-- Puts a line table together from its parts, which are checked in this order: the pairing,
the range, the order of the offsets. -/
def ofParts (segment : UInt16) (first last : UInt32) (offsets : Array UInt32)
    (lines : Array UInt16) : Except FormatError LineTable :=
  if offsets.size ≠ lines.size then
    .error (.lineCountMismatch segment offsets.size lines.size)
  else if last < first then
    .error (.invertedRange segment first last)
  else
    match firstDecrease? offsets with
    | some index => .error (.nonMonotonicOffsets segment index)
    | none => .ok ⟨segment, first, last, offsets, lines⟩

/-- Whether a code offset lies in the claimed range, both ends included. The range from zero to
zero claims the offset zero. -/
def contains (t : LineTable) (offset : UInt32) : Bool :=
  t.first ≤ offset && offset ≤ t.last

/-- Narrows down the number of leading offsets that are not above a given one, between `low`
and `high`, by halving. -/
def countUpTo (offsets : Array UInt32) (offset : UInt32) : (fuel low high : Nat) → Nat
  | 0, low, _ => low
  | fuel + 1, low, high =>
    if low < high then
      let middle := low + (high - low) / 2
      if offsets.getD middle 0 ≤ offset then countUpTo offsets offset fuel (middle + 1) high
      else countUpTo offsets offset fuel low middle
    else low

/-- The line at the greatest offset that is not above the given one, the last of them if
several are equal. Below the first offset it is the first line; an empty table has none. -/
def lineAt? (t : LineTable) (offset : UInt32) : Option UInt16 :=
  t.lines[countUpTo t.offsets offset t.offsets.size 0 t.offsets.size - 1]?

/-- The line that is found by walking over all offsets that are not above the given one and going
back one step, but not below the first entry. -/
def scanLine? (t : LineTable) (offset : UInt32) : Option UInt16 :=
  t.lines[(t.offsets.toList.takeWhile (· ≤ offset)).length - 1]?

/-- The offset of the first entry for a line. -/
def offsetOf? (t : LineTable) (line : UInt16) : Option UInt32 :=
  (t.lines.idxOf? line).bind fun i => t.offsets[i]?

/-- The pairs of offset and line, in order. -/
def entries (t : LineTable) : List (UInt32 × UInt16) :=
  t.offsets.toList.zip t.lines.toList

end LineTable

end CodeView
