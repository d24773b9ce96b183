import CodeView.DebugInfo
import CodeView.Registry

/-!
# Parser

From the bytes of a blob to its debug information. The header and the directory must be sound,
or there is no result. A subsection that cannot be decoded is dropped and reported, unless the
parser is strict, in which case the first one of them is the result.
-/

namespace CodeView

/-- How to parse. -/
structure Parser where
  /-- the decoders in charge -/
  registry : Registry
  /-- whether a subsection that cannot be decoded ends the parse -/
  strict : Bool
  deriving DecidableEq, Repr

/-- One adjustment of a parser. -/
inductive Setting
  /-- be strict, or lenient -/
  | strict (value : Bool)
  /-- put a decoder in charge of a kind -/
  | insert (kind : Kind) (decoder : Decoder)
  /-- pass over a kind -/
  | erase (kind : Kind)
  deriving DecidableEq, Repr

namespace Parser

/-- A lenient parser with the library's decoders. -/
def default : Parser := ⟨.builtin, false⟩

/-- Makes one adjustment. -/
def set (p : Parser) : Setting → Parser
  | .strict value => { p with strict := value }
  | .insert kind decoder => { p with registry := p.registry.insert kind decoder }
  | .erase kind => { p with registry := p.registry.erase kind }

/-- Makes adjustments one after the other, from the default on. -/
def ofSettings (settings : List Setting) : Parser :=
  settings.foldl set default

/-- Reads the header at the base: the signature and the offset of the directory. The signature
is judged before it is asked whether the offset fits. -/
def readHeader (source : ByteArray) (base : Nat) : Except FormatError (Signature × UInt32) := do
  let c ← (Cursor.ofBytes source).window base (source.size - base) "CodeView header"
  if c.remaining < 4 then
    throw (.truncated "CodeView signature" 4 c.remaining)
  let found := Vector.ofFn fun i : Fin 4 => byteAt source (base + i)
  match Signature.ofBytes? found with
  | none => throw (.badSignature found base)
  | some signature =>
    if c.remaining < 8 then
      throw (.truncated "CodeView header" 8 c.remaining)
    return (signature, wordAt UInt32 source (base + 4))

/-- Reads the directory at `base + offset`, which may reach to the end of the source. -/
def readDirectory (source : ByteArray) (base : Nat) (offset : UInt32) :
    Except FormatError Directory := do
  let start := base + offset.toNat
  if source.size < start then
    throw (.truncated "directory header" DirectoryHeader.width 0)
  let c ← (Cursor.ofBytes source).window start (source.size - start) "directory"
  match Directory.read c with
  | .ok directory _ => return directory
  | .error e _ => throw e

/-- Reads what must be sound before any content is decoded: the signature and the directory. -/
def readFrame (source : ByteArray) (base : Nat) : Except FormatError (Signature × Directory) := do
  let (signature, offset) ← readHeader source base
  let directory ← readDirectory source base offset
  return (signature, directory)

/-- What becomes of one directory entry: a record, or why there is none. -/
def outcome (p : Parser) (source : ByteArray) (base : Nat) (entry : DirectoryEntry) :
    Except FormatError Record :=
  (p.registry.decode source base entry).map (·.getD (.unsupported entry.kind))

/-- What becomes of every directory entry, each by itself. -/
def outcomes (p : Parser) (source : ByteArray) (base : Nat) (entries : List DirectoryEntry) :
    List (DirectoryEntry × Except FormatError Record) :=
  entries.map fun entry => (entry, p.outcome source base entry)

/-- The first failure among outcomes. -/
def firstFailure? (outcomes : List (DirectoryEntry × Except FormatError Record)) :
    Option FormatError :=
  outcomes.findSome? fun
    | (_, .error e) => some e
    | (_, .ok _) => none

/-- What the walk over the directory has come to. -/
structure Findings where
  /-- the subsections that were decoded or passed over -/
  subsections : Array Subsection
  /-- the subsections that were dropped -/
  issues : Array Issue

/-- Adds what became of the entry at an index. A strict parser gives up on a failure. -/
def settle (p : Parser) (found : Findings) (index : Nat) (entry : DirectoryEntry) :
    Except FormatError Record → Except FormatError Findings
  | .ok record =>
    .ok { found with subsections := found.subsections.push ⟨index, entry, record⟩ }
  | .error e =>
    if p.strict then .error e
    else .ok { found with issues := found.issues.push ⟨index, entry.kind, entry.moduleIndex, e⟩ }

/-- Walks over directory entries, the first of which has the given index. -/
def collect (p : Parser) (source : ByteArray) (base : Nat) (found : Findings) (index : Nat) :
    List DirectoryEntry → Except FormatError Findings
  | [] => .ok found
  | entry :: rest => do
    let found ← p.settle found index entry (p.outcome source base entry)
    p.collect source base found (index + 1) rest

/-- Parses the blob at an absolute position of a source. -/
def parse (p : Parser) (source : ByteArray) (base : Nat) : Except FormatError DebugInfo := do
  let (signature, directory) ← readFrame source base
  let found ← p.collect source base ⟨#[], #[]⟩ 0 directory.entries
  return ⟨signature, base, directory.header, found.subsections.toList, found.issues.toList⟩

end Parser

end CodeView
