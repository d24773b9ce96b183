import CodeView.Text.Pattern.Escape

/-!
# Classes in brackets

A class is a list of members, which are characters, ranges, named classes of ASCII characters and
further classes in brackets; or several such lists with operators between them. Of a class only its
depth is kept, since patterns may not be nested without bound.
-/

namespace CodeView.Text.Pattern

/-- The depth of parts side by side: a part alone is no deeper than it is, and several are one
deeper than the deepest. -/
def depthOfAll : List Nat → Nat
  | [] => 0
  | [depth] => depth
  | depth :: more => more.foldl Nat.max depth + 1

/-- A class that is being read. -/
structure Bracket where
  /-- depth of what stands to the left of the last operator -/
  left? : Option Nat
  /-- depths of the members since -/
  members : List Nat
  /-- whether a hyphen would stand for itself, since only hyphens have been read -/
  opening : Bool

namespace Bracket

/-- A class of which nothing has been read. -/
def empty : Bracket := ⟨none, [], true⟩

/-- The depth of a class without its brackets. -/
def depth (b : Bracket) : Nat :=
  let right := depthOfAll b.members
  match b.left? with
  | none => right
  | some left => Nat.max left right + 1

/-- Takes in a member. -/
def put (b : Bracket) (depth : Nat) : Bracket :=
  { b with members := depth :: b.members, opening := false }

/-- Takes in an operator. -/
def split (b : Bracket) : Bracket := ⟨some b.depth, [], false⟩

end Bracket

/-- The names of the classes of ASCII characters. -/
def asciiNames : List String :=
  ["alnum", "alpha", "ascii", "blank", "cntrl", "digit", "graph", "lower", "print", "punct",
    "space", "upper", "word", "xdigit"]

/-- Reads the rest of a named class such as `[:alpha:]` behind its first bracket, if it is one, and
tells whether it is negated. -/
def readAscii : List Char → Option (Bool × List Char)
  | ':' :: text =>
    let negated := text.head? == some '^'
    let text := if negated then text.drop 1 else text
    match text.dropWhile (· ≠ ':') with
    | ':' :: ']' :: rest =>
      if asciiNames.contains (String.ofList (text.takeWhile (· ≠ ':'))) then some (negated, rest)
      else none
    | _ => none
  | _ => none

/-- Reads one member of a class, or one end of a range. Only ASCII characters can be members while
Unicode is off. -/
def readMember (m : Mode) (text : List Char) : Option (Atom × List Char) := do
  let (atom, rest) ← match text with
    | [] => none
    | '\\' :: rest => readEscape m rest
    | c :: rest => some (.character c, rest)
  match atom with
  | .character c => if !m.unicode && 0x80 ≤ c.toNat then none else some (atom, rest)
  | .category => some (atom, rest)
  | .place => none

/-- The character that is taken for the next one when it is asked what a hyphen stands for. White
space before it does not count, nor does the sign of a comment; but what is in the comment does. -/
def peek? (m : Mode) (text : List Char) : Option Char :=
  if m.spaced then
    let seen := text.dropWhile isBlank
    let seen := if seen.head? == some '#' then (seen.drop 1).dropWhile isBlank else seen
    seen.head?.or text.head?
  else text.head?

/-- Reads a member or a range. A hyphen before a bracket or before another hyphen makes no range. -/
def readRange (m : Mode) (text : List Char) : Option (List Char) := do
  let (low, rest) ← readMember m text
  match m.skip rest with
  | '-' :: behind =>
    if peek? m behind = some ']' ∨ peek? m behind = some '-' then some rest
    else
      let (high, rest) ← readMember m (m.skip behind)
      match low, high with
      | .character low, .character high => if low ≤ high then some rest else none
      | _, _ => none
  | _ => some rest

/-- Passes the sign that negates a class. Negated classes hold no bytes alone, so there are none
while Unicode is off. -/
def openBracket (m : Mode) (text : List Char) : Option (List Char) :=
  match m.skip text with
  | '^' :: rest => if m.unicode then some rest else none
  | rest => some rest

/-- Reads the members of a class and of the `outer` ones around it, up to the end of the outermost
one, and gives its depth. Every step takes a character, so their number bounds the steps. -/
def readMembers (m : Mode) : (bound : Nat) → Bracket → (outer : List Bracket) → List Char →
    Option (Nat × List Char)
  | 0, _, _, _ => none
  | bound + 1, b, outer, text =>
    let member (opening : Bool) (rest : List Char) : Option (Nat × List Char) :=
      if m.admitsLetters then
        readMembers m bound { b.put 0 with opening := opening } outer rest
      else none
    match m.skip text with
    | [] => none
    | c :: rest =>
      if b.opening && c == '-' then member true rest
      else if b.opening && b.members.isEmpty && c == ']' then member false rest
      else if c = ']' then
        match outer with
        | [] => some (b.depth + 1, rest)
        | around :: outer => readMembers m bound (around.put (b.depth + 1)) outer rest
      else if c = '[' then
        match readAscii rest with
        | some (negated, rest) => if negated && !m.unicode then none else member false rest
        | none => (openBracket m rest).bind (readMembers m bound .empty (b :: outer))
      else if (c = '&' ∨ c = '-' ∨ c = '~') ∧ rest.head? = some c then
        readMembers m bound b.split outer (rest.drop 1)
      else (readRange m (c :: rest)).bind (member false)

/-- Reads a class behind its first bracket, and gives its depth. -/
def readBracket (m : Mode) (text : List Char) : Option (Nat × List Char) :=
  (openBracket m text).bind (readMembers m (text.length + 1) .empty [])

end CodeView.Text.Pattern
