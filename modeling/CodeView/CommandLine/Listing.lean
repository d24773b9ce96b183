import CodeView.Executable

/-!
# Directory listing

The header fields, one line for each subsection, and the dropped subsections after them.
-/

namespace CodeView

open Text (hex hexWide padLeft padRight)

/-- What a listing says of a record. -/
def Record.summary : Record → String
  | .moduleInfo info => s!"{info.name} ({info.segments.length} segments)"
  | .sourceModule module => ", ".intercalate (module.files.map (·.name))
  | .libraries names => s!"{names.length} libraries"
  | .globalSymbols header => s!"{header.symbolsSize} bytes of symbols"
  | .segmentNames names => s!"{names.names.length} segment names"
  | .fileIndex index => s!"{index.files.names.length} file names"
  | .unsupported _ => "(not decoded)"

/-- The line of a subsection in a listing. -/
def Subsection.line (s : Subsection) : String :=
  let index := padRight 4 (toString s.index)
  let kind := padRight 16 s.entry.kind.name
  let owner := padLeft 5 ' ' ((s.entry.module?.map toString).getD "-")
  let offset := hexWide 8 s.entry.offset.toNat
  let size := padLeft 7 ' ' (toString s.entry.size)
  s!"  #{index} {kind} module {owner}  offset {offset}  size {size}  {s.record.summary}\n"

namespace Executable

/-- The header fields in a listing. -/
def headerLines (exe : Executable) : String :=
  let header := exe.info.header
  s!"{exe.info.signature.name} at {hex exe.info.base}\n" ++
    s!"  ImageBase:   {hex exe.imageBase.toNat}\n" ++
    s!"  BaseOfCode:  {hex exe.baseOfCode.toNat}\n" ++
    s!"  Entries:     {header.entryCount}\n" ++
    s!"  Next dir:    {hex header.nextDirectory.toNat}\n" ++
    s!"  Flags:       {hex header.flags.toNat}\n"

/-- The listing of the directory. -/
def directoryListing (exe : Executable) : String :=
  let issues := exe.info.issues.map fun issue => s!"  {issue.message}\n"
  exe.headerLines ++ "\n" ++ String.join (exe.info.subsections.map Subsection.line) ++
    if issues.isEmpty then "" else "\nDropped subsections:\n" ++ String.join issues

end Executable

end CodeView
