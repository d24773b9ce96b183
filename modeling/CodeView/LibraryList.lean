import CodeView.Cursor

/-!
# Library lists

The names of the libraries that were linked, one after the other, each after its length. Module
descriptors count them from one, so the first name is customarily empty; a later empty name
begins the padding.
-/

namespace CodeView.LibraryList

/-- Reads names until the window or the list ends. Every name takes a byte, so the bytes that
are left bound the number of names. -/
def readNames (names : Array String) : (bound : Nat) → Read (List String)
  | 0 => return names.toList
  | bound + 1 => do
    if (← Read.remaining) = 0 then
      return names.toList
    let name ← Read.prefixedName
    if name.isEmpty && !names.isEmpty then
      return names.toList
    readNames (names.push name) bound

/-- Reads a library list. -/
def read : Read (List String) := do
  readNames #[] (← Read.remaining)

end CodeView.LibraryList
