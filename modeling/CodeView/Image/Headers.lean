import CodeView.Image.FileKind

/-!
# Image headers

The headers of a portable executable as far as the search for debug information needs them: the
load address, the data directories and the table of sections. Fields are read where the headers
put them; a header is only read once its bytes are known to lie in the file, where a read of no
bytes lies in every file.
-/

namespace CodeView.Image

/-- The two widths of the optional header. -/
inductive Width
  | narrow
  | wide
  deriving DecidableEq, Repr

/-- Length of the fixed part of the optional header. -/
def Width.headerSize : Width → Nat
  | .narrow => 96
  | .wide => 112

/-- Which part of the headers is malformed. -/
inductive HeaderError
  | headers
  | smallOptionalHeader
  | optionalHeader
  | directoryCount
  | sectionHeaders
  deriving DecidableEq, Repr

/-- The sentence that reports it. -/
def HeaderError.message : HeaderError → String
  | headers => "Invalid PE headers offset or size"
  | smallOptionalHeader => "PE optional header size is too small"
  | optionalHeader => "Invalid PE optional header size"
  | directoryCount => "Invalid PE number of RVA and sizes"
  | sectionHeaders => "Invalid COFF/PE section headers"

/-- A section of the image and where its bytes lie in the file. -/
structure Section where
  virtualSize : Nat
  virtualAddress : Nat
  /-- bytes of the section in the file -/
  fileSize : Nat
  /-- where these bytes begin -/
  filePosition : Nat
  deriving DecidableEq, Repr

/-- The section whose header is stored at a position. -/
def Section.stored (source : ByteArray) (position : Nat) : Section where
  virtualSize := natAt source (position + 8) 4
  virtualAddress := natAt source (position + 12) 4
  fileSize := natAt source (position + 16) 4
  filePosition := natAt source (position + 20) 4

/-- A stretch of the image named by a data directory. -/
structure DataDirectory where
  virtualAddress : Nat
  size : Nat
  deriving DecidableEq, Repr

/-- What the headers say. -/
structure Headers where
  /-- preferred load address -/
  imageBase : UInt64
  /-- address of the code relative to the load address -/
  baseOfCode : UInt32
  directories : List DataDirectory
  sections : List Section
  deriving DecidableEq, Repr

/-- Whether `length` bytes from a position on lie in the source. No bytes lie anywhere. -/
def fits (source : ByteArray) (position length : Nat) : Bool :=
  length == 0 || position + length ≤ source.size

/-- Reads the headers of an image of the given width. The checks come in the order of the
layout. -/
def Headers.read (width : Width) (source : ByteArray) : Except HeaderError Headers := do
  let start := natAt source 0x3c 4
  let optional := start + 24
  unless fits source start (24 + width.headerSize) do throw .headers
  let sectionCount := natAt source (start + 6) 2
  let optionalSize := natAt source (start + 20) 2
  if optionalSize < width.headerSize then throw .smallOptionalHeader
  let rest := optional + width.headerSize
  let restSize := optionalSize - width.headerSize
  unless fits source rest restSize do throw .optionalHeader
  let directoryCount := natAt source (rest - 4) 4
  if restSize < directoryCount * 8 then throw .directoryCount
  let sections := optional + optionalSize
  unless fits source sections (sectionCount * 40) do throw .sectionHeaders
  return {
    imageBase :=
      match width with
      | .narrow => .ofNat (natAt source (optional + 28) 4)
      | .wide => .ofNat (natAt source (optional + 24) 8)
    baseOfCode := .ofNat (natAt source (optional + 20) 4)
    directories := (List.range directoryCount).map fun i =>
      ⟨natAt source (rest + i * 8) 4, natAt source (rest + i * 8 + 4) 4⟩
    sections := (List.range sectionCount).map fun i => Section.stored source (sections + i * 40) }

end CodeView.Image
