import CodeView.Log.Level
import CodeView.Text.Alphanumeric
import CodeView.Text.Blank
import CodeView.Text.Cut
import CodeView.Text.Number
import CodeView.Text.Pattern
import CodeView.Text.Pieces

/-!
# Log directives

One clause of a log filter: a threshold, and what it holds for. A clause is a threshold alone, or
a target, a scope in brackets, `=` and a threshold, of which some may be missing: `info`,
`target=debug`, `target[span]=trace`, `[{field}]`, `[span{field=value}]=off`.
-/

namespace CodeView.Log

/-- The least severe level that is taken, or nothing at all. -/
abbrev Threshold := Option Level

/-- The threshold that a text stands for: a number up to five, or a word in letters of either
case. -/
def thresholdOfText? (text : String) : Option Threshold :=
  match Text.readUnsigned 10 (UInt64.size - 1) text.toList with
  | .ok 0 => some none
  | .ok 1 => some (some .error)
  | .ok 2 => some (some .warn)
  | .ok 3 => some (some .info)
  | .ok 4 => some (some .debug)
  | .ok 5 => some (some .trace)
  | .ok _ => none
  | .error _ =>
    match text.toLower with
    | "off" => some none
    | "error" => some (some .error)
    | "warn" => some (some .warn)
    | "info" => some (some .info)
    | "debug" => some (some .debug)
    | "trace" => some (some .trace)
    | _ => none

/-- A field that something must have, and the value that it must have there. -/
structure FieldTest where
  name : String
  value? : Option String
  deriving DecidableEq, Repr

/-- What a directive holds for, beside its target: what happens within a span, a stretch of a run
that has a name, and what has a field. -/
structure Scope where
  span? : Option String
  field? : Option FieldTest
  deriving DecidableEq, Repr

/-- The scope of everything. -/
def Scope.everything : Scope := ⟨none, none⟩

/-- A threshold for the targets that begin with a text, as far as they are in a scope; every
target begins with no text. -/
structure Directive where
  target : String
  scope : Scope
  threshold : Threshold
  deriving DecidableEq, Repr

namespace FieldTest

/-- Whether a text can be the value of a field: a number or a pattern. A number is a pattern too
unless it begins with `+`. -/
def isValue (text : List Char) : Bool :=
  (text.head? == some '+' && Text.isFraction (text.drop 1)) || Text.Pattern.isPattern text

/-- Reads a name, or a name, `=` and a value; nothing behind a second `=` counts. -/
def ofText? (text : List Char) : Option FieldTest :=
  if text.isEmpty then none
  else
    match Text.pieces '=' text with
    | name :: value :: _ =>
      if isValue value then some ⟨String.ofList name, some (String.ofList value)⟩ else none
    | _ => some ⟨String.ofList text, none⟩

end FieldTest

namespace Directive

/-- Whether a target can begin with a character. -/
def startsTarget (c : Char) : Bool :=
  c == '-' || c == ':' || c == '_' || Text.isAlphanumeric c

/-- Reads the end of a directive, `=` and a threshold, whose `=` is at a position of its text. All
levels are taken where none is given. -/
def readThreshold (text : List Char) (position : Nat) : List Char → Option Threshold
  | [] => some (some .trace)
  | '=' :: _ =>
    let level := Text.behind (position + 1) text
    if level.isEmpty then some (some .trace) else thresholdOfText? (String.ofList level)
  | _ => none

/-- Reads the rest of a directive behind the bracket that opens its scope, from a position of its
text on. -/
def readScope (text : List Char) (target : String) (position : Nat) (rest : List Char) :
    Option Directive :=
  let span := rest.takeWhile fun c => c != ']' && c != '{'
  let name := String.ofList (Text.between position (Text.byteSize span) text)
  let position := position + Text.byteSize span + 1
  match rest.drop span.length with
  | ']' :: rest =>
    (readThreshold text position rest).map (⟨target, ⟨some name, none⟩, ·⟩)
  | '{' :: rest =>
    let field := rest.takeWhile (· != '}')
    match rest.drop field.length with
    | '}' :: ']' :: rest => do
      let test ← FieldTest.ofText? (Text.between position (Text.byteSize field) text)
      let threshold ← readThreshold text (position + Text.byteSize field + 2) rest
      let span? := if name.isEmpty then none else some name
      return ⟨target, ⟨span?, some test⟩, threshold⟩
    | _ => none
  | _ => none

/-- Reads a directive. Its parts are found in the text without the white space at its ends, and
taken from the same positions of the text itself. -/
def ofText? (text : List Char) : Option Directive :=
  match Text.trim text with
  | [] => none
  | '[' :: rest => readScope text "" 1 rest
  | c :: rest =>
    if startsTarget c then
      let start := (c :: rest).takeWhile fun c => c != '=' && c != '['
      let size := Text.byteSize start
      let target := String.ofList (Text.between 0 size text)
      match (c :: rest).drop start.length with
      | [] =>
        match thresholdOfText? (String.ofList text) with
        | some threshold => some ⟨"", .everything, threshold⟩
        | none => some ⟨String.ofList text, .everything, some .trace⟩
      | '[' :: rest => readScope text target (size + 1) rest
      | rest => (readThreshold text size rest).map (⟨target, .everything, ·⟩)
    else none

/-- Whether the directive holds for events of a target that have the given fields. Events are in
no span, and values of fields are only looked at in spans. -/
def appliesTo (d : Directive) (target : String) (fields : List String) : Bool :=
  d.target.toList.isPrefixOf target.toList && d.scope.span?.isNone &&
    match d.scope.field? with
    | none => true
    | some test => test.value?.isNone && fields.contains test.name

/-- Whether the directive says more exactly than another what it holds for, or as exactly: by a
longer target, or else by a field. -/
def atLeastAsExact (d other : Directive) : Bool :=
  let size := d.target.utf8ByteSize
  let otherSize := other.target.utf8ByteSize
  otherSize < size ||
    (otherSize == size && (other.scope.field?.isNone || d.scope.field?.isSome))

end Directive

end CodeView.Log
