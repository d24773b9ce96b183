import CodeView.FileIndex

/-!
# Writing file indexes

The plainest file index for the files of each module: the references module by module, then each
name once, in the order in which the names are first used.
-/

namespace CodeView.FileIndex

/-- Every name once, in the order of first use. -/
def distinctNames (modules : List (List String)) : List String :=
  modules.flatten.eraseDups

/-- The name as it is stored. -/
def nameBytes (name : String) : List UInt8 :=
  prefixedBytes (Text.Lossy.encode name)

/-- The offset of a name among names that are stored one after the other. -/
def nameOffset (names : List String) (name : String) : Nat :=
  ((names.takeWhile (· ≠ name)).flatMap nameBytes).length

/-- The record for the files of each module. -/
def bytesOfModules (modules : List (List String)) : List UInt8 :=
  let counts := modules.map List.length
  let names := distinctNames modules
  wordBytes (UInt16.ofNat modules.length) ++ wordBytes (UInt16.ofNat modules.flatten.length) ++
    (starts 0 counts).flatMap (fun start => wordBytes (UInt16.ofNat start)) ++
    counts.flatMap (fun count => wordBytes (UInt16.ofNat count)) ++
    modules.flatten.flatMap (fun name => wordBytes (UInt32.ofNat (nameOffset names name))) ++
    names.flatMap nameBytes

/-- The file index of the files of each module. -/
def ofModules (modules : List (List String)) : FileIndex :=
  let counts := modules.map List.length
  let names := distinctNames modules
  let offset name := UInt32.ofNat (nameOffset names name)
  { moduleStarts := ((starts 0 counts).map UInt16.ofNat).toArray
    referenceCounts := (counts.map UInt16.ofNat).toArray
    nameOffsets := (modules.flatten.map offset).toArray
    files := ⟨names.map fun name => (offset name, name)⟩ }

end CodeView.FileIndex
