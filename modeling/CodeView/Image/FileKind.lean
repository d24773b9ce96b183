import CodeView.Bytes

/-!
# File kinds

What kind of file some bytes are, judged by how they begin. Only portable executables go on
from here; the other kinds are told apart so that a report can name them.
-/

namespace CodeView.Image

/-- A kind of file. -/
inductive FileKind
  | archive
  | bigObject
  | importObject
  | object
  | sharedCache
  | elf32
  | elf64
  | mach32
  | mach64
  | machFat32
  | machFat64
  | portable32
  | portable64
  | xcoff32
  | xcoff64
  deriving DecidableEq, Repr

/-- How reports name the kind. -/
def FileKind.name : FileKind → String
  | archive => "Archive"
  | bigObject => "CoffBig"
  | importObject => "CoffImport"
  | object => "Coff"
  | sharedCache => "DyldCache"
  | elf32 => "Elf32"
  | elf64 => "Elf64"
  | mach32 => "MachO32"
  | mach64 => "MachO64"
  | machFat32 => "MachOFat32"
  | machFat64 => "MachOFat64"
  | portable32 => "Pe32"
  | portable64 => "Pe64"
  | xcoff32 => "Xcoff32"
  | xcoff64 => "Xcoff64"

/-- Why the kind of a file cannot be told. -/
inductive UnknownKind
  /-- there are too few bytes -/
  | noMagic
  /-- the first bytes are those of no known kind -/
  | magic
  /-- an anonymous object of no known class -/
  | anonymousObject
  /-- a DOS program that is not a portable executable -/
  | dosProgram
  deriving DecidableEq, Repr

/-- The sentence that reports it. -/
def UnknownKind.message : UnknownKind → String
  | noMagic => "Could not read file magic"
  | magic => "Unknown file magic"
  | anonymousObject => "Unknown anon object file"
  | dosProgram => "Unknown MS-DOS file"

/-- Whether the bytes at a position are the given ones, all of them within the source. -/
def hasBytes (source : ByteArray) (position : Nat) (bytes : List UInt8) : Bool :=
  position + bytes.length ≤ source.size && bytesAt source position bytes.length == bytes

/-- The beginnings that settle the kind by themselves. -/
def magics : List (List UInt8 × FileKind) :=
  [([0x21, 0x3c, 0x61, 0x72, 0x63, 0x68, 0x3e, 0x0a], .archive),
    ([0x21, 0x3c, 0x74, 0x68, 0x69, 0x6e, 0x3e, 0x0a], .archive),
    ([0x64, 0x79, 0x6c, 0x64, 0x5f, 0x76, 0x31, 0x20], .sharedCache),
    ([0x7f, 0x45, 0x4c, 0x46, 0x01], .elf32),
    ([0x7f, 0x45, 0x4c, 0x46, 0x02], .elf64),
    ([0xfe, 0xed, 0xfa, 0xce], .mach32),
    ([0xce, 0xfa, 0xed, 0xfe], .mach32),
    ([0xfe, 0xed, 0xfa, 0xcf], .mach64),
    ([0xcf, 0xfa, 0xed, 0xfe], .mach64),
    ([0xca, 0xfe, 0xba, 0xbe], .machFat32),
    ([0xca, 0xfe, 0xba, 0xbf], .machFat64),
    ([0xc4, 0x01], .object),
    ([0x64, 0xaa], .object),
    ([0x41, 0xa6], .object),
    ([0xf0, 0x01], .object),
    ([0xf1, 0x01], .object),
    ([0xf2, 0x01], .object),
    ([0x4c, 0x01], .object),
    ([0x64, 0x86], .object),
    ([0x00, 0x00, 0xff, 0xff, 0x00, 0x00], .importObject),
    ([0x01, 0xdf], .xcoff32),
    ([0x01, 0xf7], .xcoff64)]

/-- The class identifier of an object file with many sections. -/
def bigObjectClass : List UInt8 :=
  [0xc7, 0xa1, 0xba, 0xd1, 0xee, 0xba, 0xa9, 0x4b, 0xaf, 0x20, 0xfa, 0xf6, 0x6a, 0xa4, 0xdc, 0xb8]

/-- The kind of a file that begins as a DOS program does. The DOS header leads to the headers of
a portable executable, whose optional header tells its width. -/
def ofDosProgram (source : ByteArray) : Except UnknownKind FileKind :=
  let headers := natAt source 0x3c 4
  if source.size < 64 ∨ source.size < headers + 120 then .error .dosProgram
  else if hasBytes source headers [0x50, 0x45, 0x00, 0x00] then
    match natAt source (headers + 24) 2 with
    | 0x10b => .ok .portable32
    | 0x20b => .ok .portable64
    | _ => .error .dosProgram
  else .error .dosProgram

/-- The kind of a file, from its first bytes and what these point at. -/
def FileKind.detect (source : ByteArray) : Except UnknownKind FileKind :=
  if source.size < 16 then .error .noMagic
  else
    match magics.find? fun entry => hasBytes source 0 entry.1 with
    | some entry => .ok entry.2
    | none =>
      if hasBytes source 0 [0x00, 0x00, 0xff, 0xff, 0x02, 0x00] then
        if 32 ≤ source.size ∧ hasBytes source 12 bigObjectClass then .ok .bigObject
        else .error .anonymousObject
      else if hasBytes source 0 [0x4d, 0x5a] then ofDosProgram source
      else .error .magic

end CodeView.Image
