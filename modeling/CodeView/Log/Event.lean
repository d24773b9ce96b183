import CodeView.Executable
import CodeView.Log.Level
import CodeView.Text.Quoted

/-!
# Log events

What a run reports of itself. An event is kept as what happened; its level, the part of the
program it belongs to and its sentence follow from that.
-/

namespace CodeView.Log

open Text (hex quote)

/-- Something that happened in a run. -/
inductive Event
  /-- a log file is in use -/
  | logFile (path : String)
  /-- an input is about to be read -/
  | loading (path : String) (raw strict : Bool)
  /-- the image has no debug data directory -/
  | noDebugDirectory
  /-- the image has a CodeView entry -/
  | blobFound (offset size : Nat)
  /-- the header of a blob was read -/
  | blobHeader (signature : Signature) (base : Nat) (directory : UInt32)
  /-- a directory was read -/
  | directory (position base entries : Nat)
  /-- a directory entry was read -/
  | entry (entry : DirectoryEntry)
  /-- no decoder is in charge of a subsection -/
  | skipping (kind : Kind)
  /-- a subsection is about to be decoded -/
  | decoding (kind : Kind) (position size : Nat)
  /-- a decoder has reached a point -/
  | landmark (landmark : Landmark)
  /-- a subsection was dropped -/
  | dropped (issue : Issue)
  /-- a parse has ended -/
  | parsed (subsections sourceModules dropped : Nat)
  /-- the debug information of an image is there -/
  | loaded (signature : Signature) (imageBase : UInt64) (baseOfCode : UInt32)
  /-- the source of a code offset was found -/
  | resolved (offset : UInt32) (location : Location)
  deriving DecidableEq, Repr

namespace Event

/-- How severe the event is. -/
def level : Event → Level
  | dropped _ => .warn
  | parsed .. => .info
  | loaded .. => .info
  | logFile _ => .debug
  | loading .. => .debug
  | noDebugDirectory => .debug
  | blobFound .. => .debug
  | blobHeader .. => .debug
  | directory .. => .debug
  | entry _ => .trace
  | skipping _ => .trace
  | decoding .. => .trace
  | landmark _ => .trace
  | resolved .. => .trace

/-- The part of the program that reports the event. -/
def target : Event → String
  | logFile _ => "cvlens_utils::logging"
  | loading .. => "cvlens"
  | noDebugDirectory => "cvlens_core::image"
  | blobFound .. => "cvlens_core::image"
  | loaded .. => "cvlens_core::image"
  | blobHeader .. => "cvlens_core::codeview"
  | dropped _ => "cvlens_core::codeview"
  | parsed .. => "cvlens_core::codeview"
  | directory .. => "cvlens_core::codeview::directory"
  | entry _ => "cvlens_core::codeview::directory"
  | skipping _ => "cvlens_core::codeview::subsection"
  | decoding .. => "cvlens_core::codeview::subsection"
  | landmark (.sourceModule _) => "cvlens_core::codeview::source_module"
  | landmark (.moduleInfo ..) => "cvlens_core::codeview::records"
  | resolved .. => "cvlens_core::resolver"

/-- The names of the fields that every event has. -/
def fields : List String := ["message"]

/-- The sentence that reports a landmark. -/
def landmarkMessage : Landmark → String
  | .sourceModule (.header base files extents) =>
    s!"Source module at {hex base}: {files} files, {extents} segments"
  | .sourceModule (.fileTable position) => s!"File table at {hex position}"
  | .sourceModule (.lineTable segment position pairs) =>
    s!"Line table for segment {segment} at {hex position}: {pairs} pairs"
  | .moduleInfo name segments => s!"Module {quote name}: {segments} segments"

/-- The sentence that reports the event. -/
def message : Event → String
  | logFile path => s!"Logging to {path}"
  | loading path raw strict => s!"Loading {path} (raw: {raw}, strict: {strict})"
  | noDebugDirectory => "No debug data directory"
  | blobFound offset size => s!"CodeView entry at file offset {hex offset} ({size} bytes)"
  | blobHeader signature base offset =>
    s!"{signature.name} at {hex base}, directory at +{hex offset.toNat}"
  | directory position base entries =>
    s!"Directory at {hex position} (base {hex base}): {entries} entries"
  | entry e =>
    let offset := hex e.offset.toNat
    let size := hex e.size.toNat
    s!"Entry {e.kind.label} module={e.moduleIndex} offset={offset} size={size}"
  | skipping kind => s!"No decoder for {kind.name}, skipping"
  | decoding kind position size => s!"Decoding {kind.name} at {hex position} ({size} bytes)"
  | landmark l => landmarkMessage l
  | dropped issue => s!"Dropping subsection {issue.message}"
  | parsed subsections sourceModules issues =>
    s!"Parsed {subsections} subsections ({sourceModules} source modules, {issues} dropped)"
  | loaded signature imageBase baseOfCode =>
    let image := hex imageBase.toNat
    let code := hex baseOfCode.toNat
    s!"Loaded CodeView {signature.name} (ImageBase {image}, BaseOfCode {code})"
  | resolved offset location => s!"{hex offset.toNat} -> {location.text}"

end Event

end CodeView.Log
