import CodeView.Resolver

/-!
# Plain scans

A line looked up by walking over everything that is recorded, in order: modules, their files, the
line tables of a file, the pairs of a table.
-/

namespace CodeView.Resolver

/-- Every line table with its file, in order. -/
def tables (r : Resolver) : List (SourceFile × LineTable) :=
  r.files.flatMap fun file => file.tables.map fun table => (file, table)

/-- A recorded pair and the file it belongs to. -/
structure Line where
  file : String
  offset : UInt32
  line : UInt16
  deriving DecidableEq, Repr

/-- Every recorded pair, in order. -/
def lines (r : Resolver) : List Line :=
  r.tables.flatMap fun (file, table) =>
    table.entries.map fun (offset, line) => ⟨file.name, offset, line⟩

/-- The code offset of the first pair that a file of exactly this name has for a line. -/
def scanLine (r : Resolver) (file : String) (line : UInt16) : Option UInt32 :=
  (r.lines.find? fun recorded => recorded.file == file && recorded.line == line).map (·.offset)

end CodeView.Resolver
