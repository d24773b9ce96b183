import CodeView.NameTable

/-!
# File index

Every source file that contributed code, module by module. The references of all modules form
one array of name offsets; a module has the stretch of it that its start and its count tell.
-/

namespace CodeView

/-- The files of each module. -/
structure FileIndex where
  /-- where the references of each module begin -/
  moduleStarts : Array UInt16
  /-- how many references each module has -/
  referenceCounts : Array UInt16
  /-- the references: offsets into the names -/
  nameOffsets : Array UInt32
  /-- the names -/
  files : NameTable
  deriving DecidableEq, Repr

namespace FileIndex

/-- The files of a module, which are counted from one. References beyond the array or to no
name are left out, and an unknown module has no files. -/
def moduleFiles (index : FileIndex) (module : UInt16) : List String :=
  if module = 0 then []
  else
    match index.moduleStarts[module.toNat - 1]?, index.referenceCounts[module.toNat - 1]? with
    | some start, some count =>
      ((index.nameOffsets.toList.drop start.toNat).take count.toNat).filterMap
        index.files.nameAt?
    | _, _ => []

/-- Reads a file index. Offsets of names count from the first name. -/
def read : Read FileIndex := do
  let moduleCount := (← Read.word UInt16).toNat
  let referenceCount := (← Read.word UInt16).toNat
  let moduleStarts ← Read.words UInt16 moduleCount
  let referenceCounts ← Read.words UInt16 moduleCount
  let nameOffsets ← Read.words UInt32 referenceCount
  let files ← NameTable.readFrom (← Read.position) Read.prefixedName
  return ⟨moduleStarts, referenceCounts, nameOffsets, files⟩

end FileIndex

end CodeView
