import CodeView.Address
import CodeView.Image.Locate
import CodeView.Parser
import CodeView.Resolver

/-!
# Executables

The debug information of one executable, queried in virtual addresses. Line tables count from
the start of the code, so an address is the load address, the base of the code and the code
offset added up.
-/

namespace CodeView

/-- Why debug information cannot be loaded. -/
inductive LoadError
  /-- the CodeView data is malformed -/
  | format (error : FormatError)
  /-- the image cannot be searched -/
  | executable (reason : String)
  /-- the image of this name has no CodeView data -/
  | noDebugInfo (name : String)
  /-- the file cannot be read -/
  | io (reason : String)
  deriving DecidableEq, Repr

/-- The sentence that reports it. -/
def LoadError.message : LoadError → String
  | format error => "Invalid CodeView data: " ++ error.message
  | executable reason => "Invalid executable: " ++ reason
  | noDebugInfo name => "No CodeView debug information found in " ++ name
  | io reason => "IO error: " ++ reason

/-- A resolver over the source modules of a parse result. -/
def DebugInfo.resolver (info : DebugInfo) : Resolver :=
  .ofModules info.sourceModules

/-- The code offset of an address, for the given load address and base of code. -/
def codeOffset? (imageBase : UInt64) (baseOfCode : UInt32) (address : Address) : Option UInt32 := do
  let inImage ← address.sub? imageBase
  let inCode ← inImage.sub? baseOfCode.toUInt64
  if inCode.value.toNat < UInt32.size then some inCode.value.toUInt32 else none

/-- The address of a code offset, for the given load address and base of code. -/
def virtualAddress? (imageBase : UInt64) (baseOfCode : UInt32) (offset : UInt32) :
    Option Address := do
  let code ← (Address.mk imageBase).add? baseOfCode.toUInt64
  code.add? offset.toUInt64

/-- The debug information of an executable. -/
structure Executable where
  /-- preferred load address -/
  imageBase : UInt64
  /-- address of the code relative to the load address -/
  baseOfCode : UInt32
  info : DebugInfo
  deriving DecidableEq, Repr

/-- A resolver that works in virtual addresses. -/
structure VirtualResolver where
  imageBase : UInt64
  baseOfCode : UInt32
  resolver : Resolver

namespace VirtualResolver

/-- The source of the code at an address. -/
def resolve (r : VirtualResolver) (address : Address) : Option Location := do
  r.resolver.resolveAddress (← codeOffset? r.imageBase r.baseOfCode address)

/-- The address where a line of a file begins. -/
def addressOf (r : VirtualResolver) (file : String) (line : UInt16) :
    Option Address × VirtualResolver :=
  let (offset?, resolver) := r.resolver.resolveLine file line
  (offset?.bind (virtualAddress? r.imageBase r.baseOfCode), { r with resolver := resolver })

end VirtualResolver

namespace Executable

/-- The debug information of a bare blob, whose addresses are its code offsets. -/
def ofBlob (parser : Parser) (source : ByteArray) (base : Nat) : Except LoadError Executable :=
  match parser.parse source base with
  | .ok info => .ok ⟨0, 0, info⟩
  | .error e => .error (.format e)

/-- The bytes of an image up to the end of the blob that it declares; nothing beyond is read. -/
def visibleBytes (source : ByteArray) (blob : Image.BlobLocation) : ByteArray :=
  source.extract 0 (min (blob.offset + blob.size) source.size)

/-- The debug information of an image. -/
def ofImage (parser : Parser) (source : ByteArray) : Except LoadError Executable :=
  match Image.locate source with
  | .error e => .error (.executable e.message)
  | .ok none => .error (.noDebugInfo "executable")
  | .ok (some blob) =>
    match parser.parse (visibleBytes source blob) blob.offset with
    | .ok info => .ok ⟨blob.imageBase, blob.baseOfCode, info⟩
    | .error e => .error (.format e)

/-- A resolver over the line tables, in code offsets. -/
def resolver (exe : Executable) : Resolver :=
  exe.info.resolver

/-- A resolver over the line tables, in virtual addresses. -/
def virtualResolver (exe : Executable) : VirtualResolver :=
  ⟨exe.imageBase, exe.baseOfCode, exe.resolver⟩

/-- The code offset of an address, if it lies in the four gigabytes from the code on. -/
def codeOffset? (exe : Executable) (address : Address) : Option UInt32 :=
  CodeView.codeOffset? exe.imageBase exe.baseOfCode address

/-- The address of a code offset, if there is one. -/
def virtualAddress? (exe : Executable) (offset : UInt32) : Option Address :=
  CodeView.virtualAddress? exe.imageBase exe.baseOfCode offset

/-- The source of the code at an address. -/
def resolve (exe : Executable) (address : Address) : Option Location :=
  exe.virtualResolver.resolve address

/-- The address where a line of a file begins. -/
def addressOf (exe : Executable) (file : String) (line : UInt16) : Option Address :=
  (exe.virtualResolver.addressOf file line).1

end Executable

end CodeView
