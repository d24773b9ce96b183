import CodeView.Text.Alphanumeric
import CodeView.Text.Pattern.Bracket

/-!
# Patterns

Which texts are regular expressions. A pattern stands between braces, so it holds no closing brace
of its own, and with that no counted repetition.
-/

namespace CodeView.Text.Pattern

/-- Flags that were read: those that were named, and the mode that they lead to. -/
structure Flags where
  named : List Char
  negated : Bool
  mode : Mode

/-- Takes in one flag. -/
def Flags.put (f : Flags) (c : Char) : Option Flags :=
  let on := !f.negated
  let f := { f with named := c :: f.named }
  match c with
  | 'i' => some { f with mode := { f.mode with caseless := on } }
  | 'u' => some { f with mode := { f.mode with unicode := on } }
  | 'x' => some { f with mode := { f.mode with spaced := on } }
  | 'm' => some f
  | 's' => some f
  | 'U' => some f
  | 'R' => some f
  | _ => none

/-- Reads flags up to `:` or `)`, none of them twice, those behind a hyphen turned off. Tells
whether a group follows. -/
def readFlags (f : Flags) : List Char → Option (Mode × Bool × List Char)
  | [] => none
  | ':' :: rest => if f.named.head? == some '-' then none else some (f.mode, true, rest)
  | ')' :: rest =>
    if f.named.isEmpty || f.named.head? == some '-' then none else some (f.mode, false, rest)
  | c :: rest =>
    if f.named.contains c then none
    else if c = '-' then readFlags { f with named := '-' :: f.named, negated := true } rest
    else (f.put c).bind fun f => readFlags f rest

/-- Whether a text can name a group. -/
def isGroupName : List Char → Bool
  | [] => false
  | first :: rest =>
    (first == '_' || isAlphabetic first) &&
      rest.all fun c => c == '_' || c == '.' || c == '[' || c == ']' || isAlphanumeric c

/-- One of the parts that a pattern puts side by side. -/
structure Part where
  depth : Nat
  /-- whether it can be repeated -/
  repeatable : Bool

/-- What has been read of a pattern, or of a group in it. -/
structure Level where
  mode : Mode
  /-- depths of the alternatives that are complete -/
  alternatives : List Nat
  /-- parts of the last alternative, the latest first -/
  parts : List Part

namespace Level

/-- A level of which nothing has been read. -/
def empty (mode : Mode) : Level := ⟨mode, [], []⟩

/-- Takes in a part. -/
def put (l : Level) (depth : Nat) : Level := { l with parts := ⟨depth, true⟩ :: l.parts }

/-- Takes in flags, which cannot be repeated. -/
def turn (l : Level) (mode : Mode) : Level := { l with mode, parts := ⟨0, false⟩ :: l.parts }

/-- Takes in a repetition of the latest part. -/
def again (l : Level) : Option Level :=
  match l.parts with
  | ⟨depth, true⟩ :: parts => some { l with parts := ⟨depth + 1, true⟩ :: parts }
  | _ => none

/-- Completes an alternative. -/
def split (l : Level) : Level :=
  { l with alternatives := depthOfAll (l.parts.map (·.depth)) :: l.alternatives, parts := [] }

/-- The depth of all that has been read. -/
def depth (l : Level) : Nat := depthOfAll l.split.alternatives

end Level

/-- How far a pattern has been read. -/
structure State where
  level : Level
  /-- the levels of the groups around, the innermost first -/
  outer : List Level
  /-- names of groups -/
  names : List (List Char)

/-- Reads what follows the opening of a group, as far as its own text or to the end of flags. -/
def openGroup (s : State) (text : List Char) : Option (State × List Char) :=
  let inner (mode : Mode) : State := { s with level := .empty mode, outer := s.level :: s.outer }
  let named (text : List Char) : Option (State × List Char) :=
    let name := text.takeWhile (· ≠ '>')
    match text.dropWhile (· ≠ '>') with
    | '>' :: rest =>
      if isGroupName name && !s.names.contains name then
        some ({ inner s.level.mode with names := name :: s.names }, rest)
      else none
    | _ => none
  match s.level.mode.skip text with
  | '?' :: 'P' :: '<' :: rest => named rest
  | '?' :: '<' :: rest => named rest
  | '?' :: rest =>
    match readFlags ⟨[], false, s.level.mode⟩ rest with
    | some (mode, true, rest) => some (inner mode, rest)
    | some (mode, false, rest) => some ({ s with level := s.level.turn mode }, rest)
    | none => none
  | rest => some (inner s.level.mode, rest)

/-- Reads one element of a pattern, which begins with `c`. -/
def step (s : State) (c : Char) (rest : List Char) : Option (State × List Char) :=
  let mode := s.level.mode
  let put (depth : Nat) (rest : List Char) : Option (State × List Char) :=
    some ({ s with level := s.level.put depth }, rest)
  if c = '(' then openGroup s rest
  else if c = ')' then
    match s.outer with
    | around :: outer =>
      some ({ s with level := around.put (s.level.depth + 1), outer := outer }, rest)
    | [] => none
  else if c = '|' then some ({ s with level := s.level.split }, rest)
  else if c = '*' ∨ c = '+' ∨ c = '?' then
    s.level.again.map fun level =>
      ({ s with level := level }, if rest.head? = some '?' then rest.drop 1 else rest)
  else if c = '{' then none
  else if c = '[' then (readBracket mode rest).bind fun (depth, rest) => put depth rest
  else if c = '\\' then
    match readEscape mode rest with
    | some (.character _, rest) => if mode.admitsLetters then put 0 rest else none
    | some (_, rest) => put 0 rest
    | none => none
  else if c = '.' then if mode.unicode then put 0 rest else none
  else if c = '^' ∨ c = '$' then put 0 rest
  else if mode.admitsLetters then put 0 rest
  else none

/-- The greatest depth of a pattern. -/
def maxDepth : Nat := 250

/-- Reads a pattern to its end, where no group may be open. Every step takes a character, so
their number bounds the steps. -/
def read (s : State) : (bound : Nat) → List Char → Bool
  | bound, text =>
    match s.level.mode.skip text, bound with
    | [], _ => s.outer.isEmpty && s.level.depth ≤ maxDepth
    | _ :: _, 0 => false
    | c :: rest, bound + 1 =>
      match step s c rest with
      | some (s, rest) => read s bound rest
      | none => false

/-- Whether a text is a pattern. -/
def isPattern (text : List Char) : Bool :=
  read ⟨.empty .default, [], []⟩ text.length text

end CodeView.Text.Pattern
