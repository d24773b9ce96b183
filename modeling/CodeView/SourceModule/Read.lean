import CodeView.Cursor
import CodeView.SourceModule.Layout

/-!
# Reading source modules

The reader follows the offsets of a record, each table in turn: the header, then the first file
table with its line tables, then the next. It stops at the first fault. Each table that is
reached is noted, so that a run can be followed up to the point where it fails.
-/

namespace CodeView

namespace SourceModule

/-- A part of a source module that the reader has reached. -/
inductive Landmark
  /-- the header at `base`, and its two counts -/
  | header (base files extents : Nat)
  /-- a file table at `position` -/
  | fileTable (position : Nat)
  /-- a line table at `position`, and its number of pairs -/
  | lineTable (segment : UInt16) (position pairs : Nat)
  deriving DecidableEq, Repr

/-- A cursor and the landmarks passed so far. -/
structure Walk where
  cursor : Cursor
  passed : Array Landmark

/-- A reading that notes landmarks. -/
abbrev WalkM := EStateM FormatError Walk

/-- Runs a plain reading within a walk. -/
def WalkM.ofRead {α : Type} (r : Read α) : WalkM α := fun w =>
  match r w.cursor with
  | .ok a c => .ok a { w with cursor := c }
  | .error e c => .error e { w with cursor := c }

instance : MonadLift Read WalkM := ⟨WalkM.ofRead⟩

/-- Notes a landmark. -/
def pass (landmark : Landmark) : WalkM Unit := fun w =>
  .ok () { w with passed := w.passed.push landmark }

/-- Reads the line table at `base + offset` for the claimed range. -/
def walkTable (base : Nat) (offset : UInt32) (range : UInt32 × UInt32) : WalkM LineTable := do
  Read.seekFrom base offset
  let position ← Read.position
  let segment ← Read.word UInt16
  let pairs := (← Read.word UInt16).toNat
  pass (.lineTable segment position pairs)
  Read.ensure pairs 6
  let offsets ← Read.words UInt32 pairs
  let lines ← Read.words UInt16 pairs
  match LineTable.ofParts segment range.1 range.2 offsets lines with
  | .ok table => return table
  | .error e => throw e

/-- Reads the file table at `base + offset` and the line tables it points at. -/
def walkFile (base : Nat) (offset : UInt32) : WalkM SourceFile := do
  Read.seekFrom base offset
  pass (.fileTable (← Read.position))
  let count := (← Read.word UInt16).toNat
  let padPosition ← Read.position
  let pad ← Read.word UInt16
  if pad ≠ 0 then
    throw (.badPadding padPosition pad)
  let offsets ← Read.words UInt32 count
  let ranges ← Read.table count 8 rangeAt
  let name ← Read.prefixedName
  let tables ← (offsets.toList.zip ranges.toList).mapM fun (offset, range) =>
    walkTable base offset range
  return ⟨name, tables⟩

/-- Reads the record that begins at the current position. -/
def walk : WalkM SourceModule := do
  let base ← Read.position
  let fileCount := (← Read.word UInt16).toNat
  let extentCount := (← Read.word UInt16).toNat
  pass (.header base fileCount extentCount)
  let fileOffsets ← Read.words UInt32 fileCount
  let ranges ← Read.table extentCount 8 rangeAt
  let segments ← Read.words UInt16 extentCount
  let extents := segments.toList.zipWith (fun segment (first, last) => ⟨segment, first, last⟩)
    ranges.toList
  let files ← fileOffsets.toList.mapM (walkFile base)
  return ⟨extents, files⟩

/-- Reads a source module, and lists the landmarks that were passed. -/
def readNoting (c : Cursor) : EStateM.Result FormatError Cursor SourceModule × List Landmark :=
  match walk ⟨c, #[]⟩ with
  | .ok m w => (.ok m w.cursor, w.passed.toList)
  | .error e w => (.error e w.cursor, w.passed.toList)

/-- Reads a source module. -/
def read : Read SourceModule := fun c => (readNoting c).1

end SourceModule

end CodeView
