import CodeView.Directory
import CodeView.Record

/-!
# Debug information

Everything that was recovered from one CodeView blob: the subsections in directory order, and
the ones that could not be decoded with the reason.
-/

namespace CodeView

open Text (upperHexDigits)

/-- The signatures whose directory has the known layout. -/
inductive Signature
  | nb09
  | nb11
  deriving DecidableEq, Repr

namespace Signature

/-- The text of the signature. -/
def name : Signature → String
  | nb09 => "NB09"
  | nb11 => "NB11"

/-- The four bytes of the signature. -/
def bytes : Signature → Vector UInt8 4
  | nb09 => #v[0x4e, 0x42, 0x30, 0x39]
  | nb11 => #v[0x4e, 0x42, 0x31, 0x31]

/-- The signature with the given bytes. -/
def ofBytes? (found : Vector UInt8 4) : Option Signature :=
  [nb09, nb11].find? fun signature => signature.bytes = found

end Signature

/-- A subsection and the directory entry that led to it. -/
structure Subsection where
  /-- place of the entry in the directory -/
  index : Nat
  entry : DirectoryEntry
  record : Record
  deriving DecidableEq, Repr

/-- The subsection that the outcome of an entry leaves. -/
def Subsection.ofOutcome? :
    (DirectoryEntry × Except FormatError Record) × Nat → Option Subsection
  | ((entry, .ok record), index) => some ⟨index, entry, record⟩
  | ((_, .error _), _) => none

/-- A subsection that was dropped. -/
structure Issue where
  /-- place of the entry in the directory -/
  index : Nat
  kind : Kind
  moduleIndex : UInt16
  /-- why the content could not be decoded -/
  error : FormatError
  deriving DecidableEq, Repr

/-- The issue that the outcome of an entry raises. -/
def Issue.ofOutcome? : (DirectoryEntry × Except FormatError Record) × Nat → Option Issue
  | ((_, .ok _), _) => none
  | ((entry, .error error), index) => some ⟨index, entry.kind, entry.moduleIndex, error⟩

/-- The sentence that reports a dropped subsection. -/
def Issue.message (issue : Issue) : String :=
  let number := toString issue.index
  let kind := issue.kind.name
  let owner := toString issue.moduleIndex
  let error := issue.error.message
  s!"entry #{number} ({kind}, module {owner}): {error}"

/-- What was recovered from a blob. -/
structure DebugInfo where
  signature : Signature
  /-- absolute position of the blob -/
  base : Nat
  header : DirectoryHeader
  subsections : List Subsection
  issues : List Issue
  deriving DecidableEq, Repr

namespace DebugInfo

/-- Sorts the outcomes of all directory entries into subsections and issues. -/
def ofOutcomes (signature : Signature) (base : Nat) (header : DirectoryHeader)
    (outcomes : List (DirectoryEntry × Except FormatError Record)) : DebugInfo where
  signature := signature
  base := base
  header := header
  subsections := outcomes.zipIdx.filterMap Subsection.ofOutcome?
  issues := outcomes.zipIdx.filterMap Issue.ofOutcome?

/-- The records in directory order. -/
def records (info : DebugInfo) : List Record :=
  info.subsections.map (·.record)

/-- The source modules in directory order. -/
def sourceModules (info : DebugInfo) : List SourceModule :=
  info.records.filterMap Record.sourceModule?

/-- The module descriptors in directory order. -/
def modules (info : DebugInfo) : List ModuleInfo :=
  info.records.filterMap Record.moduleInfo?

/-- The first library list. -/
def libraries? (info : DebugInfo) : Option (List String) :=
  info.records.findSome? fun
    | .libraries names => some names
    | _ => none

/-- The first table of segment names. -/
def segmentNames? (info : DebugInfo) : Option NameTable :=
  info.records.findSome? fun
    | .segmentNames names => some names
    | _ => none

/-- The first file index. -/
def fileIndex? (info : DebugInfo) : Option FileIndex :=
  info.records.findSome? fun
    | .fileIndex index => some index
    | _ => none

/-- The source files of all source modules. -/
def files (info : DebugInfo) : List SourceFile :=
  info.sourceModules.flatMap (·.files)

end DebugInfo

/-- The lines of the listing of one line table, which is number `k` of its file. -/
def LineTable.listing (t : LineTable) (k : Nat) : String :=
  let head := s!"\tSegment #{k} ({t.first} - {t.last})\n"
  String.join (head :: t.entries.map fun (offset, line) =>
    let digits := upperHexDigits 8 offset.toNat
    s!"\t\tLine {line} @ 0x{digits} = {offset}\n")

/-- The lines of the listing of one source file. -/
def SourceFile.listing (f : SourceFile) : String :=
  String.join ((f.name ++ ":\n") :: f.tables.zipIdx.map fun (table, k) => table.listing k)

/-- The listing of every line table. -/
def DebugInfo.listing (info : DebugInfo) : String :=
  String.join (info.files.map SourceFile.listing)

end CodeView
