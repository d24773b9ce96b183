import CodeView.CommandLine.Path
import CodeView.Log.Filter
import CodeView.Log.Format

/-!
# Setting up the log

Where the log of a run goes, in which layout, and what it takes, from the options and the
environment.
-/

namespace CodeView.CommandLine

open Log (Event Filter Format Level)

/-- Why a log cannot be set up. -/
inductive LogError
  /-- the layout that was asked for is none -/
  | invalidFormat (reason : String)
  /-- the path of the log file has no file name -/
  | invalidPath (path : String)
  /-- a log is in place already -/
  | initialization (reason : String)
  /-- the log file cannot be written -/
  | file (reason : String)
  deriving DecidableEq, Repr

/-- The sentence that reports it. -/
def LogError.message : LogError → String
  | invalidFormat reason => "Invalid log format: " ++ reason
  | invalidPath path => "Invalid log file path: " ++ path
  | initialization reason => "Failed to initialize logging: " ++ reason
  | file reason => "File logging error: " ++ reason

/-- What the environment says about the log. -/
structure Environment where
  /-- the directives of a filter -/
  filter? : Option String
  /-- the layout -/
  format? : Option String
  /-- a log file beside the console -/
  file? : Option String
  deriving DecidableEq, Repr

/-- Reads the environment by the names of its variables. -/
def Environment.ofLookup (find : String → Option String) : Environment :=
  ⟨find "RUST_LOG", find "CVLENS_LOG_FORMAT", find "CVLENS_LOG_FILE"⟩

/-- What the options say about the log. -/
structure LogOptions where
  level? : Option Level
  format? : Option Format
  file? : Option String
  deriving DecidableEq, Repr

/-- A log file. -/
structure LogFile where
  /-- the path as it was given -/
  path : String
  /-- the name of the file -/
  name : String
  /-- the directory that holds it, which is made where it is missing -/
  directory : Path
  /-- whether the date is added to the name -/
  daily : Bool
  deriving DecidableEq, Repr

/-- The name of the file that is written on a day. -/
def LogFile.nameOn (f : LogFile) (date : String) : String :=
  if f.daily then f.name ++ "." ++ date else f.name

/-- Where the log goes and what it takes. -/
structure LogPlan where
  format : Format
  filter : Filter
  /-- whether the log is shown on the console -/
  console : Bool
  file? : Option LogFile
  deriving DecidableEq, Repr

namespace LogPlan

/-- The log file at a path. -/
def logFile (path : String) (daily : Bool) : Except LogError LogFile :=
  let parsed := Path.ofText path
  match parsed.fileName? with
  | some name => .ok ⟨path, name, parsed.directory, daily⟩
  | none => .error (.invalidPath path)

/-- The filter of a level, or else the one in the environment, or else that of the information
level; directives that cannot be read count as none. -/
def filterFor (level? : Option Level) (env : Environment) : Filter :=
  match level? with
  | some level => .ofLevel level
  | none => (env.filter?.bind Filter.ofText?).getD (.ofLevel .info)

/-- A log on the console, and in a daily file if the environment names one. -/
def onConsole (format : Format) (level? : Option Level) (env : Environment) :
    Except LogError LogPlan := do
  let file? ← env.file?.mapM fun path => logFile path true
  return ⟨format, filterFor level? env, true, file?⟩

/-- A log in a file alone. -/
def inFile (path : String) (format : Format) (level? : Option Level) (env : Environment) :
    Except LogError LogPlan := do
  return ⟨format, filterFor level? env, false, some (← logFile path false)⟩

/-- The plan that options and environment ask for. A log file among the options takes the place
of the console. Without file and level the environment decides if it names a filter, and it then
decides on the layout too; if it names none, warnings are shown. -/
def choose (options : LogOptions) (env : Environment) : Except LogError LogPlan :=
  let format := options.format?.getD Format.default
  match options.file?, options.level? with
  | some path, level? => inFile path format level? env
  | none, some level => onConsole format (some level) env
  | none, none =>
    if env.filter?.isSome then
      match env.format? with
      | none => onConsole Format.default none env
      | some text =>
        match Format.ofText? text with
        | some format => onConsole format none env
        | none => .error (.invalidFormat (Format.unknown text))
    else onConsole format (some .warn) env

/-- The events that the log takes, beginning with the log file if there is one. -/
def select (p : LogPlan) (events : List Event) : List Event :=
  let opening := p.file?.toList.map fun file => Event.logFile file.path
  (opening ++ events).filter p.filter.takes

end LogPlan

end CodeView.CommandLine
