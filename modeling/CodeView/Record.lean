import CodeView.FileIndex
import CodeView.GlobalSymbols
import CodeView.Kind
import CodeView.LibraryList
import CodeView.ModuleInfo
import CodeView.SourceModule.Read

/-!
# Records

The decoded content of a subsection, and the decoders that the library has for it.
-/

namespace CodeView

/-- The decoded content of a subsection. -/
inductive Record
  | moduleInfo (info : ModuleInfo)
  | sourceModule (module : SourceModule)
  | libraries (names : List String)
  | globalSymbols (header : GlobalSymbols)
  | segmentNames (names : NameTable)
  | fileIndex (index : FileIndex)
  /-- content that no decoder was in charge of -/
  | unsupported (kind : Kind)
  deriving DecidableEq, Repr

/-- The source module that was decoded, if it was one. -/
def Record.sourceModule? : Record → Option SourceModule
  | .sourceModule module => some module
  | _ => none

/-- The module descriptor that was decoded, if it was one. -/
def Record.moduleInfo? : Record → Option ModuleInfo
  | .moduleInfo info => some info
  | _ => none

/-- A point that a decoder has reached. -/
inductive Landmark
  /-- a part of a source module -/
  | sourceModule (landmark : SourceModule.Landmark)
  /-- a module descriptor, decoded up to its name -/
  | moduleInfo (name : String) (segments : Nat)
  deriving DecidableEq, Repr

/-- The decoders of the library, one for each form of content. -/
inductive Decoder
  | moduleInfo
  | sourceModule
  | libraries
  | globalSymbols
  | segmentNames
  | fileIndex
  deriving DecidableEq, Repr

namespace Decoder

/-- Decodes the content at a cursor. -/
def read : Decoder → Read Record
  | moduleInfo => return .moduleInfo (← ModuleInfo.read)
  | sourceModule => return .sourceModule (← SourceModule.read)
  | libraries => return .libraries (← LibraryList.read)
  | globalSymbols => return .globalSymbols (← GlobalSymbols.read)
  | segmentNames => return .segmentNames (← NameTable.readSegmentNames)
  | fileIndex => return .fileIndex (← FileIndex.read)

/-- The points that decoding the content at a cursor passes, in order. -/
def landmarks (d : Decoder) (c : Cursor) : List Landmark :=
  match d with
  | sourceModule => (SourceModule.readNoting c).2.map .sourceModule
  | moduleInfo =>
    match ModuleInfo.read c with
    | .ok info _ => [.moduleInfo info.name info.segments.length]
    | .error _ _ => []
  | _ => []

end Decoder

end CodeView
