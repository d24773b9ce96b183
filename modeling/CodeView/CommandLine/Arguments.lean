import CodeView.Address
import CodeView.CommandLine.Logging

/-!
# Arguments

The command line: options for the log anywhere, a command, and the command's own options and
operands in any order. An option that takes a value has it in the next argument or after `=`;
after `--` every argument is an operand.
-/

namespace CodeView.CommandLine

open Log (Format Level)

/-- Where the debug information comes from and how it is read. -/
structure Input where
  /-- path of the file -/
  path : String
  /-- whether the file is a bare blob and not an image -/
  raw : Bool
  /-- position of the signature in a bare blob -/
  base : Nat
  /-- whether a subsection that cannot be decoded is an error -/
  strict : Bool
  deriving DecidableEq, Repr

/-- What to do. -/
inductive Command
  /-- find the sources of addresses, or of code offsets -/
  | lookup (input : Input) (addresses : List Address) (offsets : Bool)
  /-- find the address of a line -/
  | line (input : Input) (file : String) (line : UInt16)
  /-- list every line table -/
  | dump (input : Input)
  /-- list the directory -/
  | directory (input : Input)
  deriving DecidableEq, Repr

/-- The input of a command. -/
def Command.input : Command → Input
  | lookup input _ _ => input
  | line input _ _ => input
  | dump input => input
  | directory input => input

/-- What the arguments ask for. -/
inductive Request
  | run (options : LogOptions) (command : Command)
  | version
  deriving DecidableEq, Repr

/-- Why arguments come to nothing that can be run. -/
inductive UsageError
  /-- they ask for help -/
  | helpAsked
  | missingCommand
  | unknownCommand (name : String)
  | unknownOption (name : String)
  | repeatedOption (name : String)
  | missingValue (name : String)
  | unexpectedValue (name : String)
  | invalidValue (value : String)
  | missingOperand
  | unexpectedOperand (value : String)
  | baseWithoutRaw
  deriving DecidableEq, Repr

/-- The sentence that reports it. -/
def UsageError.message : UsageError → String
  | helpAsked => "Usage: cvlens [OPTIONS] <COMMAND>"
  | missingCommand => "a command is missing"
  | unknownCommand name => "unknown command " ++ name
  | unknownOption name => "unexpected argument " ++ name
  | repeatedOption name => "the argument " ++ name ++ " cannot be used multiple times"
  | missingValue name => "a value is missing for " ++ name
  | unexpectedValue name => "unexpected value for " ++ name
  | invalidValue value => "invalid value " ++ value
  | missingOperand => "an operand is missing"
  | unexpectedOperand value => "unexpected argument " ++ value
  | baseWithoutRaw => "--base needs --raw"

/-- The four commands. -/
inductive Verb
  | lookup
  | line
  | dump
  | directory
  deriving DecidableEq, Repr

/-- The command of a name. -/
def Verb.ofText? : String → Option Verb
  | "lookup" => some .lookup
  | "line" => some .line
  | "dump" => some .dump
  | "directory" => some .directory
  | _ => none

/-- The options, which are all spelled out. -/
inductive OptionName
  | logLevel
  | logFormat
  | logFile
  | base
  | raw
  | strict
  | offset
  deriving DecidableEq, Repr

namespace OptionName

/-- The option with a name, among those of the top level or of a command. -/
def ofText? (verb? : Option Verb) (name : String) : Option OptionName :=
  match name, verb? with
  | "--log-level", _ => some logLevel
  | "--log-format", _ => some logFormat
  | "--log-file", _ => some logFile
  | "--base", some _ => some base
  | "--raw", some _ => some raw
  | "--strict", some _ => some strict
  | "--offset", some .lookup => some offset
  | _, _ => none

/-- Whether the option takes a value. -/
def takesValue : OptionName → Bool
  | logLevel => true
  | logFormat => true
  | logFile => true
  | base => true
  | raw => false
  | strict => false
  | offset => false

end OptionName

/-- What has been read on one level of the command line. -/
structure Reading where
  level? : Option Level
  format? : Option Format
  file? : Option String
  base? : Option Nat
  raw : Bool
  strict : Bool
  offset : Bool
  /-- the operands, in order -/
  operands : Array String
  deriving DecidableEq, Repr

namespace Reading

/-- Nothing read yet. -/
def empty : Reading := ⟨none, none, none, none, false, false, false, #[]⟩

/-- Whether an option has been read. -/
def has (r : Reading) : OptionName → Bool
  | .logLevel => r.level?.isSome
  | .logFormat => r.format?.isSome
  | .logFile => r.file?.isSome
  | .base => r.base?.isSome
  | .raw => r.raw
  | .strict => r.strict
  | .offset => r.offset

/-- Takes in an option and its value, which is nothing for an option without one. -/
def put (r : Reading) (option : OptionName) (value : String) : Except UsageError Reading :=
  let invalid : UsageError := .invalidValue value
  match option with
  | .logLevel =>
    match Level.ofText? value with
    | some level => .ok { r with level? := some level }
    | none => .error invalid
  | .logFormat =>
    match Format.ofText? value with
    | some format => .ok { r with format? := some format }
    | none => .error invalid
  | .logFile => if value.isEmpty then .error invalid else .ok { r with file? := some value }
  | .base =>
    match Address.ofText value with
    | .ok address => .ok { r with base? := some address.value.toNat }
    | .error _ => .error invalid
  | .raw => .ok { r with raw := true }
  | .strict => .ok { r with strict := true }
  | .offset => .ok { r with offset := true }

/-- Takes in an option that must not have been read before. -/
def putOnce (r : Reading) (option : OptionName) (name value : String) :
    Except UsageError Reading :=
  if r.has option then .error (.repeatedOption name) else r.put option value

/-- The options for the log; those of this level go before those of an outer one. -/
def logOptions (outer inner : Reading) : LogOptions where
  level? := inner.level?.or outer.level?
  format? := inner.format?.or outer.format?
  file? := inner.file?.or outer.file?

end Reading

/-- Whether an argument is an option or a cluster of letters, and not an operand. -/
def isOption (arg : String) : Bool :=
  match arg.toList with
  | '-' :: _ :: _ => true
  | _ => false

/-- The name of an option and the value that is attached to it. -/
def splitOption (arg : String) : String × Option String :=
  let name := arg.toList.takeWhile (· ≠ '=')
  match arg.toList.dropWhile (· ≠ '=') with
  | [] => (arg, none)
  | _ :: value => (String.ofList name, some (String.ofList value))

/-- Reads the option that an argument spells, and its value from the same argument or from the
next one, which must not look like an option. Gives what is left of the arguments. -/
def readOption (verb? : Option Verb) (r : Reading) (arg : String) (rest : List String) :
    Except UsageError (Reading × List String) := do
  let (name, attached?) := splitOption arg
  match OptionName.ofText? verb? name with
  | none => throw (.unknownOption name)
  | some option =>
    match option.takesValue, attached?, rest with
    | false, some _, _ => throw (.unexpectedValue name)
    | false, none, rest => return (← r.putOnce option name "", rest)
    | true, some value, rest => return (← r.putOnce option name value, rest)
    | true, none, [] => throw (.missingValue name)
    | true, none, value :: rest =>
      if isOption value then throw (.missingValue name)
      return (← r.putOnce option name value, rest)

/-- Reads a line number: decimal digits after an optional sign, at most 65535. -/
def lineNumber? (text : String) : Option UInt16 :=
  let number :=
    match text.toList with
    | '-' :: digit :: digits => Text.readDigits 10 0 0 (digit :: digits)
    | digits => Text.readUnsigned 10 65535 digits
  number.toOption.map UInt16.ofNat

/-- The command that a verb and the reading of its arguments make up. -/
def commandOf (verb : Verb) (r : Reading) : Except UsageError Command := do
  if r.base?.isSome && !r.raw then
    throw .baseWithoutRaw
  match r.operands.toList with
  | [] => throw .missingOperand
  | path :: operands =>
    if path.isEmpty then
      throw (.invalidValue path)
    let input : Input := ⟨path, r.raw, r.base?.getD 0, r.strict⟩
    match verb, operands with
    | .lookup, [] => throw .missingOperand
    | .lookup, texts =>
      let addresses ← texts.mapM fun text =>
        match Address.ofText text with
        | .ok address => pure address
        | .error _ => throw (.invalidValue text)
      return .lookup input addresses r.offset
    | .line, [file, text] =>
      match lineNumber? text with
      | some line => return .line input file line
      | none => throw (.invalidValue text)
    | .dump, [] => return .dump input
    | .directory, [] => return .directory input
    | .line, _ :: _ :: extra :: _ => throw (.unexpectedOperand extra)
    | .line, _ => throw .missingOperand
    | _, extra :: _ => throw (.unexpectedOperand extra)

/-- Whether an argument asks for help. -/
def asksHelp (arg : String) : Bool :=
  arg == "--help" || "-h".toList.isPrefixOf arg.toList

/-- What comes of asking for help on a command. An operand that was refused before goes first. -/
def helpError (verb : Verb) (r : Reading) : UsageError :=
  match commandOf verb { r with base? := none } with
  | .error (.invalidValue value) => .invalidValue value
  | .error (.unexpectedOperand value) => .unexpectedOperand value
  | _ => .helpAsked

/-- Reads the arguments of a command. Every argument is taken once, so their number bounds the
steps. -/
def readArguments (verb : Verb) (r : Reading) : (bound : Nat) → List String →
    Except UsageError Reading
  | 0, _ => .ok r
  | _ + 1, [] => .ok r
  | bound + 1, arg :: rest =>
    if arg = "--" then .ok { r with operands := r.operands ++ rest.toArray }
    else if asksHelp arg then .error (helpError verb r)
    else if isOption arg then
      match readOption (some verb) r arg rest with
      | .ok (r, rest) => readArguments verb r bound rest
      | .error e => .error e
    else readArguments verb { r with operands := r.operands.push arg } bound rest

/-- Whether an argument asks for the version. -/
def asksVersion (arg : String) : Bool :=
  arg == "--version" || "-V".toList.isPrefixOf arg.toList

/-- What comes of asking for help by its name, on the program, on a command or on help itself. -/
def helpOn : List String → UsageError
  | [] => .helpAsked
  | [name] =>
    if (Verb.ofText? name).isSome || name == "help" then .helpAsked else .unknownCommand name
  | _ :: name :: _ => .unknownCommand name

/-- Reads the arguments up to the command, then those of the command. -/
def readRequest (r : Reading) : (bound : Nat) → List String → Except UsageError Request
  | 0, _ => .error .missingCommand
  | _ + 1, [] => .error .missingCommand
  | bound + 1, arg :: rest =>
    if asksVersion arg then .ok .version
    else if asksHelp arg then .error .helpAsked
    else if isOption arg then
      match readOption none r arg rest with
      | .ok (r, rest) => readRequest r bound rest
      | .error e => .error e
    else
      match Verb.ofText? arg with
      | none => .error (if arg = "help" then helpOn rest else .unknownCommand arg)
      | some verb => do
        let inner ← readArguments verb .empty rest.length rest
        return .run (Reading.logOptions r inner) (← commandOf verb inner)

/-- What a command line asks for. -/
def Request.ofArguments (args : List String) : Except UsageError Request :=
  readRequest .empty args.length args

end CodeView.CommandLine
