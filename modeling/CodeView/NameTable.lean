import CodeView.Cursor

/-!
# Name tables

Names that other records refer to by the offset at which they begin.
-/

namespace CodeView

/-- Names, each with the offset at which it begins. -/
structure NameTable where
  entries : List (UInt32 × String)
  deriving DecidableEq, Repr

namespace NameTable

/-- The names in order. -/
def names (t : NameTable) : List String :=
  t.entries.map (·.2)

/-- The name that begins at an offset. -/
def nameAt? (t : NameTable) (offset : UInt32) : Option String :=
  (t.entries.find? fun entry => entry.1 == offset).map (·.2)

/-- A distance as an offset, which ends at the largest 32-bit number. -/
def offsetOf (distance : Nat) : UInt32 :=
  UInt32.ofNat (min distance 0xffffffff)

/-- Reads names until the window ends or an empty name begins the padding; offsets count from
`origin`. Every name takes a byte, so the bytes that are left bound the number of names. -/
def readEntries (origin : Nat) (name : Read String) (entries : Array (UInt32 × String)) :
    (bound : Nat) → Read NameTable
  | 0 => return ⟨entries.toList⟩
  | bound + 1 => do
    if (← Read.remaining) = 0 then
      return ⟨entries.toList⟩
    let position ← Read.position
    let text ← name
    if text.isEmpty then
      return ⟨entries.toList⟩
    readEntries origin name (entries.push (offsetOf (position - origin), text)) bound

/-- Reads the names from the position on, with offsets that count from `origin`. -/
def readFrom (origin : Nat) (name : Read String) : Read NameTable := do
  readEntries origin name #[] (← Read.remaining)

/-- Reads a table of segment names: each ends with a zero byte, and offsets count from the start
of the window. -/
def readSegmentNames : Read NameTable := do
  readFrom (← get).start Read.terminatedName

end NameTable

end CodeView
