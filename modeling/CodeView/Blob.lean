import CodeView.DebugInfo

/-!
# Blobs

The plainest blob for a list of subsections: the signature and the offset of the directory, the
content of each subsection, and the directory. Contents and directory begin at multiples of four
in the file that holds the blob.
-/

namespace CodeView.Blob

/-- A subsection to be stored. -/
structure Content where
  /-- tag of its kind -/
  tag : UInt16
  /-- number of the module it belongs to -/
  moduleIndex : UInt16
  bytes : List UInt8
  deriving DecidableEq, Repr

/-- Length of the header: the signature and the offset of the directory. -/
def headerWidth : Nat := 8

/-- Where the contents begin that are stored from `position` on. -/
def places (position : Nat) : (contents : List Content) → List Nat
  | [] => []
  | content :: rest =>
    alignUp position :: places (alignUp position + content.bytes.length) rest

/-- The contents as they are stored from `position` on, filled up to where the directory
begins. -/
def contentBytes (position : Nat) : (contents : List Content) → List UInt8
  | [] => padding position
  | content :: rest =>
    padding position ++ content.bytes ++
      contentBytes (alignUp position + content.bytes.length) rest

/-- The entry of a content that lies `offset` bytes from the base. -/
def Content.entry (content : Content) (offset : Nat) : DirectoryEntry where
  kind := Kind.ofTag content.tag
  moduleIndex := content.moduleIndex
  offset := UInt32.ofNat offset
  size := UInt32.ofNat content.bytes.length

/-- The directory of contents at the given places. -/
def directoryBytes (base : Nat) (contents : List Content) (places : List Nat) : List UInt8 :=
  let header : DirectoryHeader :=
    ⟨.ofNat DirectoryHeader.width, .ofNat DirectoryEntry.width, .ofNat contents.length, 0, 0⟩
  header.bytes ++
    (contents.zipWith (fun content place => (content.entry (place - base)).bytes) places).flatten

/-- The bytes of a file that holds `before` and after it a blob of the given subsections. -/
def fileBytes (before : List UInt8) (signature : Signature) (contents : List Content) :
    List UInt8 :=
  let base := before.length
  let stored := contentBytes (base + headerWidth) contents
  before ++ signature.bytes.toList ++
    wordBytes (UInt32.ofNat (headerWidth + stored.length)) ++ stored ++
    directoryBytes base contents (places (base + headerWidth) contents)

end CodeView.Blob
