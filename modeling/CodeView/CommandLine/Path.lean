import CodeView.Text.Pieces

/-!
# Paths

A path cut at its slashes. Between two slashes there may be nothing, or a dot for staying where one
is; such pieces are kept, since a system counts them, but they name nothing.
-/

namespace CodeView.CommandLine

/-- A path. -/
structure Path where
  /-- whether it begins at the root, and not in the working directory -/
  absolute : Bool
  /-- what lies between the slashes, behind the first slash of an absolute path -/
  pieces : List String
  deriving DecidableEq, Repr

namespace Path

/-- Whether a piece of a path leads nowhere else. -/
def isIdle (piece : String) : Bool :=
  piece == "" || piece == "."

/-- The path that a text spells. -/
def ofText (text : String) : Path :=
  let pieces := (Text.pieces '/' text.toList).map String.ofList
  if text.toList.head? = some '/' then ⟨true, pieces.drop 1⟩ else ⟨false, pieces⟩

/-- The text of a path. -/
def text (p : Path) : String :=
  (if p.absolute then "/" else "") ++ "/".intercalate p.pieces

/-- The names that a path goes through, `..` among them. -/
def names (p : Path) : List String :=
  p.pieces.filter fun piece => !isIdle piece

/-- The name of the file, unless the path ends by going up or has no names. -/
def fileName? (p : Path) : Option String :=
  p.names.getLast?.filter (· != "..")

/-- The path without idle pieces at its end, except for the first piece of a relative one. -/
def trimEnd (p : Path) : Path :=
  let kept := (p.pieces.reverse.dropWhile isIdle).reverse
  { p with pieces := if kept.isEmpty && !p.absolute then p.pieces.take 1 else kept }

theorem length_pieces_trimEnd (p : Path) : p.trimEnd.pieces.length ≤ p.pieces.length := by
  have h := (List.dropWhile_suffix isIdle (l := p.pieces.reverse)).length_le
  simp only [List.length_reverse] at h
  simp only [trimEnd]
  split
  · exact List.length_take_le' ..
  · simpa using h

/-- The path that leads to where the last step of a path starts, if it has one. -/
def parent? (p : Path) : Option Path :=
  if p.trimEnd.pieces.isEmpty then none
  else some (trimEnd ⟨p.absolute, p.trimEnd.pieces.dropLast⟩)

/-- The way up ends. -/
theorem length_pieces_of_parent? {p q : Path} (h : p.parent? = some q) :
    q.pieces.length < p.pieces.length := by
  simp only [parent?] at h
  split at h
  · simp at h
  · rename_i hne
    obtain rfl := Option.some.inj h
    have h₁ := length_pieces_trimEnd ⟨p.absolute, p.trimEnd.pieces.dropLast⟩
    have h₂ := length_pieces_trimEnd p
    have h₃ : p.trimEnd.pieces.length ≠ 0 := by simpa using hne
    simp only [List.length_dropLast] at h₁
    omega

/-- The directory that holds the file: the working directory if the path is a name alone. -/
def directory (p : Path) : Path :=
  match p.parent? with
  | some parent => if parent.pieces.isEmpty && !p.absolute then ⟨false, ["."]⟩ else parent
  | none => ⟨false, ["."]⟩

end Path

end CodeView.CommandLine
