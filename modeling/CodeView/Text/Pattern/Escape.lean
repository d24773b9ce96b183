import CodeView.Text.Blank

/-!
# Characters of patterns

What a pattern holds between its brackets: characters that stand for themselves, what a backslash
begins, and, where they do not count, white space and comments.

A pattern is compiled to an automaton over UTF-8 without Unicode tables. So what would need one
(the classes `\d`, `\s`, `\w` and `\p`, word boundaries, matching without regard to case) is refused
while Unicode is on, and what could match bytes that are no UTF-8 is refused while it is off.
-/

namespace CodeView.Text.Pattern

/-- The flags that decide what is accepted. -/
structure Mode where
  /-- letters of either case match -/
  caseless : Bool
  /-- characters are code points, and not bytes -/
  unicode : Bool
  /-- white space and comments do not count -/
  spaced : Bool
  deriving DecidableEq, Repr

/-- The flags at the start of a pattern. -/
def Mode.default : Mode := ⟨false, true, false⟩

/-- Whether a character may stand for itself, or a class for its members. -/
def Mode.admitsLetters (m : Mode) : Bool :=
  !(m.caseless && m.unicode)

/-- The text behind white space and comments, which end with their lines; in a comment or not. -/
def skipBlanks (comment : Bool) : List Char → List Char
  | [] => []
  | c :: rest =>
    if comment then skipBlanks (c != '\n') rest
    else if isBlank c then skipBlanks false rest
    else if c = '#' then skipBlanks true rest
    else c :: rest

/-- The text from where it counts. -/
def Mode.skip (m : Mode) (text : List Char) : List Char :=
  if m.spaced then skipBlanks false text else text

/-- What one element of a pattern stands for. -/
inductive Atom
  /-- a character -/
  | character (c : Char)
  /-- a class of characters -/
  | category
  /-- a place between characters -/
  | place
  deriving DecidableEq, Repr

/-- The value of a hexadecimal digit of either case. -/
def hexValue? (c : Char) : Option Nat :=
  if '0' ≤ c ∧ c ≤ '9' then some (c.toNat - '0'.toNat)
  else if 'a' ≤ c ∧ c ≤ 'f' then some (c.toNat - 'a'.toNat + 10)
  else if 'A' ≤ c ∧ c ≤ 'F' then some (c.toNat - 'A'.toNat + 10)
  else none

/-- Continues the number `value` with `count` hexadecimal digits. -/
def readHexDigits (m : Mode) (value : Nat) : (count : Nat) → List Char → Option (Nat × List Char)
  | 0, text => some (value, text)
  | count + 1, text =>
    match m.skip text with
    | [] => none
    | c :: rest =>
      match hexValue? c with
      | some digit => readHexDigits m (value * 16 + digit) count rest
      | none => none

/-- Reads a character that is given by `count` hexadecimal digits. Two digits give a byte while
Unicode is off. -/
def readHex (m : Mode) (count : Nat) (text : List Char) : Option (Atom × List Char) :=
  match readHexDigits m 0 count text with
  | some (value, rest) =>
    if !m.unicode && count == 2 && 0x80 ≤ value then none
    else if value.isValidChar then some (.character (Char.ofNat value), rest)
    else none
  | none => none

/-- Reads what follows a backslash. -/
def readEscape (m : Mode) : List Char → Option (Atom × List Char)
  | [] => none
  | c :: rest =>
    if c = 'x' then readHex m 2 rest
    else if c = 'u' then readHex m 4 rest
    else if c = 'U' then readHex m 8 rest
    else if c = 'd' ∨ c = 's' ∨ c = 'w' then if m.unicode then none else some (.category, rest)
    else if c = 'b' ∨ c = 'B' ∨ c = '<' ∨ c = '>' then
      if m.unicode then none else some (.place, rest)
    else if c = 'A' ∨ c = 'z' then some (.place, rest)
    else if c = 'a' then some (.character '\x07', rest)
    else if c = 'f' then some (.character '\x0c', rest)
    else if c = 't' then some (.character '\t', rest)
    else if c = 'n' then some (.character '\n', rest)
    else if c = 'r' then some (.character '\r', rest)
    else if c = 'v' then some (.character '\x0b', rest)
    else if c.isAlphanum ∨ 0x80 ≤ c.toNat then none
    else some (.character c, rest)

end CodeView.Text.Pattern
