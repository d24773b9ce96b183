import CodeView.Text.Number

/-!
# Subsection kinds

The 16-bit tag by which a directory entry says what its subsection holds. Eighteen tags have a
name; any other is kept as it is.
-/

namespace CodeView

/-- What a subsection holds. -/
inductive Kind
  | moduleInfo
  | types
  | publics
  | publicSymbols
  | symbols
  | alignedSymbols
  | segmentLines
  | sourceModule
  | libraries
  | globalSymbols
  | globalPublics
  | globalTypes
  | pcode
  | segmentMap
  | segmentNames
  | precompiled
  | fileIndex
  | staticSymbols
  /-- a tag without a name -/
  | other (tag : UInt16)
  deriving DecidableEq, Repr

namespace Kind

/-- The tag that a directory entry stores. -/
def tag : Kind → UInt16
  | moduleInfo => 0x120
  | types => 0x121
  | publics => 0x122
  | publicSymbols => 0x123
  | symbols => 0x124
  | alignedSymbols => 0x125
  | segmentLines => 0x126
  | sourceModule => 0x127
  | libraries => 0x128
  | globalSymbols => 0x129
  | globalPublics => 0x12a
  | globalTypes => 0x12b
  | pcode => 0x12c
  | segmentMap => 0x12d
  | segmentNames => 0x12e
  | precompiled => 0x12f
  | fileIndex => 0x133
  | staticSymbols => 0x134
  | other tag => tag

/-- The kinds that have a name, by tag. -/
def named : List Kind :=
  [moduleInfo, types, publics, publicSymbols, symbols, alignedSymbols, segmentLines, sourceModule,
    libraries, globalSymbols, globalPublics, globalTypes, pcode, segmentMap, segmentNames,
    precompiled, fileIndex, staticSymbols]

/-- The kind with a tag: a named one where there is one. -/
def ofTag (tag : UInt16) : Kind :=
  (named.find? fun kind => kind.tag == tag).getD (other tag)

@[simp] theorem tag_ofTag (tag : UInt16) : (ofTag tag).tag = tag := by
  unfold ofTag
  cases h : named.find? fun kind => kind.tag == tag with
  | none => rfl
  | some kind => simpa using List.find?_some h

/-- Whether the tag has no name. -/
def isOther : Kind → Bool
  | other _ => true
  | _ => false

/-- How reports name the kind. -/
def name : Kind → String
  | moduleInfo => "sstModule"
  | types => "sstTypes"
  | publics => "sstPublic"
  | publicSymbols => "sstPublicSym"
  | symbols => "sstSymbols"
  | alignedSymbols => "sstAlignSym"
  | segmentLines => "sstSrcLnSeg"
  | sourceModule => "sstSrcModule"
  | libraries => "sstLibraries"
  | globalSymbols => "sstGlobalSym"
  | globalPublics => "sstGlobalPub"
  | globalTypes => "sstGlobalTypes"
  | pcode => "sstMPC"
  | segmentMap => "sstSegMap"
  | segmentNames => "sstSegName"
  | precompiled => "sstPreComp"
  | fileIndex => "sstFileIndex"
  | staticSymbols => "sstStaticSym"
  | other tag => "unknown(" ++ Text.hexWide 4 tag.toNat ++ ")"

/-- How the listing of a registry and the log of directory entries name the kind: the same
name without `sst`, one of them spelled in its own way. -/
def label : Kind → String
  | pcode => "Mpc"
  | other tag => "Other(" ++ toString tag ++ ")"
  | kind => String.ofList (kind.name.toList.drop 3)

end Kind

end CodeView
