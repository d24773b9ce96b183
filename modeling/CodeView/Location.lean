/-!
# Source locations
-/

namespace CodeView

/-- The file and line that produced a piece of code, and the segment whose table said so. -/
structure Location where
  file : String
  line : UInt16
  segment : UInt16
  deriving DecidableEq, Repr

/-- A location in reports: the file, a colon and the line. -/
def Location.text (l : Location) : String :=
  s!"{l.file}:{l.line}"

end CodeView
