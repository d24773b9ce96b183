/-!
# Cuts

Parts of a text between two positions, where positions count the bytes of its UTF-8 form. A
character that a cut would go through belongs to what lies behind the cut.
-/

namespace CodeView.Text

/-- The number of bytes of a text. -/
def byteSize : List Char → Nat
  | [] => 0
  | c :: rest => c.utf8Size + byteSize rest

/-- The characters that lie within the first `count` bytes, and the others. -/
def cutAt (count : Nat) : List Char → List Char × List Char
  | [] => ([], [])
  | c :: rest =>
    if c.utf8Size ≤ count then
      let (before, behind) := cutAt (count - c.utf8Size) rest
      (c :: before, behind)
    else ([], c :: rest)

/-- The text behind a position. -/
def behind (position : Nat) (text : List Char) : List Char :=
  (cutAt position text).2

/-- The text from a position on for `size` bytes. -/
def between (position size : Nat) (text : List Char) : List Char :=
  (cutAt size (behind position text)).1

end CodeView.Text
