import CodeView.Image.Headers

/-!
# Locating the CodeView blob

The way from an image to its CodeView blob: the debug data directory, mapped into the file
through the sections, is an array of entries, and the first CodeView entry with a place in the
file counts.
-/

namespace CodeView.Image

/-- Why an image cannot be searched. -/
inductive ImageError
  /-- the kind of the file cannot be told -/
  | unrecognized (cause : UnknownKind)
  /-- the file is of another kind -/
  | notPortable (kind : FileKind)
  /-- the headers are malformed -/
  | malformed (cause : HeaderError)
  /-- no section maps the debug directory into the file -/
  | unmappedDirectory
  /-- the debug directory is longer than what its section has from there on -/
  | oversizedDirectory
  /-- the debug directory has fewer bytes than the entries that are to be taken from it -/
  | truncatedDirectory
  deriving DecidableEq, Repr

/-- The sentence that reports it. -/
def ImageError.message : ImageError → String
  | unrecognized cause => "unrecognized file format: " ++ cause.message
  | notPortable kind => "not a PE image (" ++ kind.name ++ ")"
  | malformed cause => "failed to parse PE: " ++ cause.message
  | unmappedDirectory => "failed to read debug directory: Invalid data dir virtual address"
  | oversizedDirectory => "failed to read debug directory: Invalid data dir size"
  | truncatedDirectory => "debug directory is truncated"

/-- Where the blob lies, and the header fields that addresses are computed from. -/
structure BlobLocation where
  /-- position in the file -/
  offset : Nat
  /-- declared size -/
  size : Nat
  imageBase : UInt64
  baseOfCode : UInt32
  deriving DecidableEq, Repr

/-- A stretch of a file. -/
structure Extent where
  position : Nat
  size : Nat
  deriving DecidableEq, Repr

/-- What a section has in the file from an address on: nothing where the address lies outside
the section, or where the place has no 32-bit position or is not in the file. -/
def Section.map? (source : ByteArray) (s : Section) (address : Nat) : Option Extent :=
  let present := min s.virtualSize s.fileSize
  let distance := address - s.virtualAddress
  let position := s.filePosition + distance
  if s.virtualAddress ≤ address ∧ distance < present ∧ position < UInt32.size ∧
      s.filePosition + present ≤ source.size then
    some ⟨position, present - distance⟩
  else none

/-- The place of the debug directory among the data directories. -/
def debugDirectoryIndex : Nat := 6

/-- The debug data directory, which is missing where its address is zero. -/
def Headers.debugDirectory? (h : Headers) : Option DataDirectory :=
  h.directories[debugDirectoryIndex]?.filter fun directory => directory.virtualAddress ≠ 0

/-- Where the debug directory lies in the file: in the first section that maps it. -/
def mapDirectory (source : ByteArray) (h : Headers) (directory : DataDirectory) :
    Except ImageError Extent :=
  match h.sections.findSome? fun s => s.map? source directory.virtualAddress with
  | none => .error .unmappedDirectory
  | some available =>
    if available.size < directory.size then .error .oversizedDirectory
    else .ok ⟨available.position, directory.size⟩

/-- An entry of the debug directory. -/
structure DebugEntry where
  /-- what the entry points at -/
  type : Nat
  /-- number of bytes it points at -/
  size : Nat
  /-- their position in the file -/
  position : Nat
  deriving DecidableEq, Repr

namespace DebugEntry

/-- Length of an entry. -/
def width : Nat := 28

/-- The type of an entry for CodeView information. -/
def codeView : Nat := 2

/-- The entry stored at a position. -/
def stored (source : ByteArray) (position : Nat) : DebugEntry where
  type := natAt source (position + 12) 4
  size := natAt source (position + 16) 4
  position := natAt source (position + 24) 4

/-- Whether the entry leads to a CodeView blob. -/
def isUsable (e : DebugEntry) : Bool :=
  e.type == codeView && e.position != 0

end DebugEntry

/-- The first `count` entries of a debug directory, which must have that many. -/
def takeEntries (source : ByteArray) (directory : Extent) (count : Nat) :
    Except ImageError (List DebugEntry) :=
  if count * DebugEntry.width ≤ directory.size then
    .ok ((List.range count).map fun i =>
      DebugEntry.stored source (directory.position + i * DebugEntry.width))
  else .error .truncatedDirectory

/-- The entries of a debug directory; an incomplete one at its end does not count. -/
def debugEntries (source : ByteArray) (directory : Extent) :
    Except ImageError (List DebugEntry) :=
  takeEntries source directory (directory.size / DebugEntry.width)

/-- The headers of an image. -/
def readHeaders (source : ByteArray) : Except ImageError Headers :=
  match FileKind.detect source with
  | .error cause => .error (.unrecognized cause)
  | .ok .portable32 => (Headers.read .narrow source).mapError .malformed
  | .ok .portable64 => (Headers.read .wide source).mapError .malformed
  | .ok kind => .error (.notPortable kind)

/-- Finds the CodeView blob of an image. A sound image may have none. -/
def locate (source : ByteArray) : Except ImageError (Option BlobLocation) := do
  let headers ← readHeaders source
  match headers.debugDirectory? with
  | none => return none
  | some directory =>
    let extent ← mapDirectory source headers directory
    let entries ← debugEntries source extent
    return (entries.find? DebugEntry.isUsable).map fun entry =>
      ⟨entry.position, entry.size, headers.imageBase, headers.baseOfCode⟩

end CodeView.Image
