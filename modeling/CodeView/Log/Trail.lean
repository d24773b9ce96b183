import CodeView.Log.Event

/-!
# Event trails

The events of parsing a blob and of loading an image, in order. A parse that reports its events
takes the same steps as one that does not, and what it has reported stands when it gives up.
-/

namespace CodeView

open Log (Event)

namespace Parser

/-- The events of decoding the subsection of one entry. -/
def entryTrail (p : Parser) (source : ByteArray) (base : Nat) (entry : DirectoryEntry) :
    List Event :=
  match p.registry.find? entry.kind with
  | none => [.skipping entry.kind]
  | some decoder =>
    match Registry.content source base entry with
    | .error _ => []
    | .ok c => .decoding entry.kind c.start entry.size.toNat ::
        (decoder.landmarks c).map .landmark

/-- A step of parsing that reports events. What it has reported stands when it gives up. -/
abbrev NoteM := EStateM FormatError (Array Event)

/-- Reports events. -/
def note (events : List Event) : NoteM Unit := fun log => .ok () (log ++ events)

/-- Adds what became of the entry at an index, and reports what is dropped. -/
def settleNoting (p : Parser) (found : Findings) (index : Nat) (entry : DirectoryEntry) :
    Except FormatError Record → NoteM Findings
  | .ok record =>
    return { found with subsections := found.subsections.push ⟨index, entry, record⟩ }
  | .error e => do
    if p.strict then
      throw e
    let issue : Issue := ⟨index, entry.kind, entry.moduleIndex, e⟩
    note [.dropped issue]
    return { found with issues := found.issues.push issue }

/-- Walks over directory entries, the first of which has the given index, and reports how each of
them is decoded and what is dropped. -/
def collectNoting (p : Parser) (source : ByteArray) (base : Nat) (found : Findings)
    (index : Nat) : List DirectoryEntry → NoteM Findings
  | [] => return found
  | entry :: rest => do
    note (p.entryTrail source base entry)
    let found ← p.settleNoting found index entry (p.outcome source base entry)
    p.collectNoting source base found (index + 1) rest

/-- Parses a blob and reports each step. -/
def parseNoting (p : Parser) (source : ByteArray) (base : Nat) : NoteM DebugInfo := do
  let (signature, offset) ← MonadExcept.ofExcept (readHeader source base)
  note [.blobHeader signature base offset]
  let directory ← MonadExcept.ofExcept (readDirectory source base offset)
  note [.directory (base + offset.toNat) base directory.entries.length]
  note (directory.entries.map .entry)
  let found ← p.collectNoting source base ⟨#[], #[]⟩ 0 directory.entries
  let info : DebugInfo :=
    ⟨signature, base, directory.header, found.subsections.toList, found.issues.toList⟩
  note [.parsed info.subsections.length info.sourceModules.length info.issues.length]
  return info

/-- The events of parsing a blob. -/
def trail (p : Parser) (source : ByteArray) (base : Nat) : List Event :=
  match p.parseNoting source base #[] with
  | .ok _ log => log.toList
  | .error _ log => log.toList

end Parser

namespace Image

/-- The events of searching an image for its blob. -/
def trail (source : ByteArray) : List Event :=
  match readHeaders source with
  | .error _ => []
  | .ok headers =>
    if headers.debugDirectory?.isNone then [.noDebugDirectory]
    else
      match locate source with
      | .ok (some blob) => [.blobFound blob.offset blob.size]
      | _ => []

end Image

namespace Executable

/-- The events of loading the debug information of an image. -/
def imageTrail (p : Parser) (source : ByteArray) : List Event :=
  Image.trail source ++
  match Image.locate source with
  | .ok (some blob) =>
    let visible := visibleBytes source blob
    p.trail visible blob.offset ++
    match p.parse visible blob.offset with
    | .ok info => [.loaded info.signature blob.imageBase blob.baseOfCode]
    | .error _ => []
  | _ => []

end Executable

end CodeView
