import CodeView.CommandLine.Resolve
import CodeView.Log.Line
import Std.Time.Format

/-!
# The program

Reads the files and the environment that a session asks for, and prints what it comes to. Under
the name `resolve` the program is the smaller one of the two.
-/

namespace CodeView.CommandLine

/-- What a refusal of the system means for a run. -/
def SystemError.ofReport : IO.Error → SystemError
  | .noFileOrDirectory .. => .notFound
  | .alreadyExists .. => .alreadyThere
  | .inappropriateType _ code _ => if code = 20 then .notDirectory else .isDirectory
  | .permissionDenied _ code reason => .other s!"{reason} (os error {code})"
  | .invalidArgument _ code reason => .other s!"{reason} (os error {code})"
  | report => .other (toString report)

/-- Runs an action and catches a refusal of the system. -/
def attempt {α : Type} (action : IO α) : IO (Except SystemError α) := do
  match ← action.toBaseIO with
  | .ok value => return .ok value
  | .error report => return .error (.ofReport report)

/-- The environment of the program. -/
def environment : IO Environment := do
  let names := ["RUST_LOG", "CVLENS_LOG_FORMAT", "CVLENS_LOG_FILE"]
  let values ← names.mapM fun name => return (name, ← IO.getEnv name)
  return .ofLookup fun name => (values.lookup name).join

/-- Today's date, as the names of daily files have it. -/
def today : IO String := do
  let now ← Std.Time.Timestamp.now
  return toString (Std.Time.PlainDate.ofEpochDay now.toDaysSinceUnixEpoch)

/-- The stamp of what is reported now. -/
def stamp : IO Log.Stamp := do
  let now ← Std.Time.Timestamp.now
  let time := (Std.Time.DateTime.ofTimestamp now .UTC).toISO8601String
  return ⟨time, "Main", 0, "main", 1⟩

/-- Opens the file of a log, if it has one, in a directory that is made where it is missing. -/
def openLog (plan : LogPlan) (failure : LogError → Outcome) :
    IO (Except Outcome (Option IO.FS.Handle)) := do
  let some file := plan.file? | return .ok none
  let directory := file.directory.text
  let refused (e : SystemError) : Except Outcome (Option IO.FS.Handle) :=
    .error (failure (.file e.message))
  let made ← attempt (IO.FS.createDir directory)
  if made matches .error .notDirectory then return refused .notDirectory
  match ← attempt (IO.FS.createDirAll directory) with
  | .error e => return refused e
  | .ok () =>
    let path := directory ++ "/" ++ file.nameOn (← today)
    match ← attempt (IO.FS.Handle.mk path .append) with
    | .error e => return .error (.crash s!"initializing rolling file appender failed: {e.message}")
    | .ok handle => return .ok (some handle)

/-- Writes lines to the file of a log. What cannot be written is lost. -/
def writeLines (file? : Option IO.FS.Handle) (lines : List String) : IO Unit := do
  if let some file := file? then
    discard <| attempt do
      file.putStr (String.join lines)
      file.flush

/-- Prints what a run leaves behind, and gives its exit status. -/
def Outcome.print (o : Outcome) (c : Circumstances) : IO UInt32 := do
  IO.eprint (o.consoleLog c)
  IO.print o.stdout
  IO.eprint o.stderr
  return UInt32.ofNat o.exit

/-- Acts with the file of a log open, which what comes before is written to at once. -/
def LogPlan.carryOut (plan : LogPlan) (failure : LogError → Outcome) (opening : List Log.Event)
    (act : IO Outcome) : IO UInt32 := do
  let now ← stamp
  let c : Circumstances := ⟨.prompt, fun _ => now, fun _ => now⟩
  match ← openLog plan failure with
  | .error outcome => outcome.print c
  | .ok file? =>
    let early := plan.format.lines false c.fileStamps (plan.select opening)
    writeLines file? early
    let outcome ← act
    let status ← outcome.print c
    writeLines file? ((outcome.fileLines c).drop early.length)
    return status

/-- The main program. -/
def runProgram (args : List String) : IO UInt32 := do
  match Start.ofArguments args (← environment) with
  | .usageError e =>
    if e = .helpAsked then IO.println e.message else IO.eprint s!"error: {e.message}\n"
    return UInt32.ofNat e.exit
  | .done outcome => outcome.print .still
  | .session s =>
    s.plan.carryOut .logFailure s.command.input.opening do
      return s.command.finish s.plan (← attempt (IO.FS.readBinFile s.command.input.path))

/-- The smaller program. -/
def Resolve.runProgram (args : List String) : IO UInt32 := do
  match Resolve.plan (← environment) with
  | .error e => (Resolve.logFailure e).print .still
  | .ok plan =>
    plan.carryOut Resolve.logFailure [] do
      match args with
      | [] => return Resolve.usage plan
      | path :: args =>
        return Resolve.finish plan path args (← attempt (IO.FS.readBinFile path))

end CodeView.CommandLine

open CodeView.CommandLine in
/-- Runs the program by the name under which it was called. -/
def main (args : List String) : IO UInt32 := do
  let name? := (Path.ofText (toString (← IO.appPath))).fileName?
  if name? = some "resolve" then Resolve.runProgram args else runProgram args
