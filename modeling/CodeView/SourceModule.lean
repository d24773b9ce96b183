import CodeView.LineTable

/-!
# Source modules

What one object module contributes: the code ranges it claims and, file by file, the line
tables that map its code to source lines.
-/

namespace CodeView

/-- Code that a module claims in one segment. -/
structure SegmentExtent where
  /-- number of the segment -/
  segment : UInt16
  /-- first byte of the code -/
  first : UInt32
  /-- last byte of the code -/
  last : UInt32
  deriving DecidableEq, Repr

/-- Whether the range was left unrecorded, which zeros at both ends stand for. -/
def SegmentExtent.isUnknown (e : SegmentExtent) : Bool :=
  e.first == 0 && e.last == 0

/-- A source file and the line tables of the segments it has code in. -/
structure SourceFile where
  name : String
  tables : List LineTable
  deriving DecidableEq, Repr

/-- The files and code ranges of one object module. -/
structure SourceModule where
  extents : List SegmentExtent
  files : List SourceFile
  deriving DecidableEq, Repr

end CodeView
