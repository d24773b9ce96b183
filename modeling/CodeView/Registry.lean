import CodeView.Directory
import CodeView.Record

/-!
# Registry

Which decoder is in charge of which kind of subsection. A kind without one is no error: its
subsections are passed over.
-/

namespace CodeView

/-- The decoder of each kind, at most one a kind. -/
structure Registry where
  decoders : List (Kind × Decoder)
  deriving DecidableEq, Repr

namespace Registry

/-- No decoders. -/
def empty : Registry := ⟨[]⟩

/-- The decoder in charge of a kind. -/
def find? (r : Registry) (kind : Kind) : Option Decoder :=
  (r.decoders.find? fun entry => entry.1 == kind).map (·.2)

/-- Leaves a kind without a decoder. -/
def erase (r : Registry) (kind : Kind) : Registry :=
  ⟨r.decoders.filter fun entry => entry.1 != kind⟩

/-- Puts a decoder in charge of a kind, in place of the one before. -/
def insert (r : Registry) (kind : Kind) (decoder : Decoder) : Registry :=
  ⟨(kind, decoder) :: (r.erase kind).decoders⟩

/-- Every decoder in charge of the kind it is made for. -/
def builtin : Registry where
  decoders := [(.moduleInfo, .moduleInfo), (.sourceModule, .sourceModule),
    (.libraries, .libraries), (.globalSymbols, .globalSymbols),
    (.segmentNames, .segmentNames), (.fileIndex, .fileIndex)]

/-- The listing of the kinds that have a decoder. -/
def listing (r : Registry) : String :=
  "\x7b" ++ ", ".intercalate (r.decoders.map fun entry => entry.1.label) ++ "\x7d"

/-- A cursor on the content that an entry points at, in a blob with the given base. -/
def content (source : ByteArray) (base : Nat) (entry : DirectoryEntry) :
    Except FormatError Cursor :=
  (Cursor.ofBytes source).window (base + entry.offset.toNat) entry.size.toNat "subsection content"

/-- Decodes the subsection that an entry points at. Without a decoder in charge there is no
record, wherever the entry points. -/
def decode (r : Registry) (source : ByteArray) (base : Nat) (entry : DirectoryEntry) :
    Except FormatError (Option Record) :=
  match r.find? entry.kind with
  | none => .ok none
  | some decoder =>
    match content source base entry with
    | .error e => .error e
    | .ok c =>
      match decoder.read c with
      | .ok record _ => .ok (some record)
      | .error e _ => .error e

end Registry

end CodeView
