import CodeView.CommandLine.Arguments
import CodeView.CommandLine.Folder
import CodeView.CommandLine.Listing
import CodeView.Log.Line
import CodeView.Log.Trail

/-!
# Sessions

A run of the program. It begins with the arguments and the environment, which settle what to read
and where to log, and ends with what is printed once the input has been read. The log is chosen from
the events of the run after the fact, so it cannot change what the run does, unless the file that it
is written to is the one that is read.

What a run cannot choose are its `Circumstances`: when its events are reported, and how far the
writer of the log file, which works in the background, comes.
-/

namespace CodeView.CommandLine

open Log (Event Stamp)

/-! ## Circumstances -/

/-- The number of lines that a writer keeps until it has written them. -/
def Writer.room : Nat := 128000

/-- The writer of a log file. It is handed lines and writes them in the background, so what is in
the file at a moment is up to it. A program that leaves may wait until it is done; then all is
written, unless there were too many lines at once. -/
structure Writer where
  /-- what is in the file when the input is read, of the lines that were handed over by then -/
  early : List String → ByteArray
  /-- what is in the file in the end, by whether the program waits -/
  late : (waits : Bool) → List String → ByteArray
  late_of_waits : ∀ lines, lines.length ≤ room → late true lines = (String.join lines).toUTF8

/-- The writer that writes each line when it is handed over. -/
def Writer.prompt : Writer where
  early lines := (String.join lines).toUTF8
  late _ lines := (String.join lines).toUTF8
  late_of_waits _ _ := rfl

/-- What a run cannot choose. -/
structure Circumstances where
  writer : Writer
  /-- the stamps of the events on the console, in order -/
  consoleStamps : Nat → Stamp
  /-- the stamps of the events in the log file, in order -/
  fileStamps : Nat → Stamp

/-- Circumstances in which all is written at once, and no time passes. -/
def Circumstances.still : Circumstances :=
  ⟨.prompt, fun _ => .unknown, fun _ => .unknown⟩

/-! ## Outcomes -/

/-- What a run leaves behind. -/
structure Outcome where
  /-- exit status -/
  exit : Nat
  stdout : String
  /-- what stands on stderr, apart from the log -/
  stderr : String
  /-- the plan of the log and the events that it took, once it was set up -/
  log? : Option (LogPlan × List Event)
  deriving DecidableEq, Repr

/-- The exit status of a run whose questions were all answered. -/
def exitSuccess : Nat := 0

/-- The exit status of a run that failed. -/
def exitFailure : Nat := 1

/-- The exit status of a run in which something was not found, or whose arguments were not
understood. -/
def exitNotFound : Nat := 2

/-- The exit status of a run that crashed. -/
def exitCrash : Nat := 101

/-- The exit status of a run whose arguments come to nothing that can be run. -/
def UsageError.exit : UsageError → Nat
  | helpAsked => exitSuccess
  | _ => exitNotFound

namespace Outcome

/-- A run that ends before its log is in place. -/
def unlogged (exit : Nat) (stdout stderr : String) : Outcome :=
  ⟨exit, stdout, stderr, none⟩

/-- A run that ends because its log cannot be set up. -/
def logFailure (e : LogError) : Outcome :=
  .unlogged exitFailure "" s!"Failed to initialize logging: {e.message}\n"

/-- A run that crashes. The place that such a report names is left out. -/
def crash (report : String) : Outcome :=
  .unlogged exitCrash "" s!"thread 'main' panicked: {report}\n"

/-- The log as it stands on the console. -/
def consoleLog (c : Circumstances) (o : Outcome) : String :=
  match o.log? with
  | some (plan, events) =>
    if plan.console then String.join (plan.format.lines true c.consoleStamps events) else ""
  | none => ""

/-- The lines that are handed to the writer of the log file. -/
def fileLines (c : Circumstances) (o : Outcome) : List String :=
  match o.log? with
  | some (plan, events) => plan.format.lines false c.fileStamps events
  | none => []

/-- All that stands on stderr. What is not of the log is printed when all events have happened. -/
def errorText (c : Circumstances) (o : Outcome) : String :=
  o.consoleLog c ++ o.stderr

end Outcome

/-- A run whose arguments and log are settled. -/
structure Session where
  plan : LogPlan
  command : Command
  deriving DecidableEq, Repr

/-- How a run begins. -/
inductive Start
  /-- the arguments are not understood -/
  | usageError (error : UsageError)
  /-- nothing is left to be done -/
  | done (outcome : Outcome)
  /-- the input is to be read -/
  | session (session : Session)
  deriving DecidableEq, Repr

/-- What the program calls itself, with its version. -/
def versionLine : String := "cvlens 0.0.0\n"

/-- Begins a run. -/
def Start.ofArguments (args : List String) (env : Environment) : Start :=
  match Request.ofArguments args with
  | .error e => .usageError e
  | .ok .version => .done (.unlogged exitSuccess versionLine "")
  | .ok (.run options command) =>
    match LogPlan.choose options env with
    | .error e => .done (.logFailure e)
    | .ok plan => .session ⟨plan, command⟩

/-! ## Commands -/

/-- What a command comes to with the debug information at hand. -/
structure Report where
  stdout : String
  stderr : String
  /-- whether every question had an answer -/
  found : Bool
  events : List Event
  deriving DecidableEq, Repr

namespace Report

/-- A report of nothing. -/
def empty : Report := ⟨"", "", true, []⟩

/-- One report after the other. -/
def append (a b : Report) : Report where
  stdout := a.stdout ++ b.stdout
  stderr := a.stderr ++ b.stderr
  found := a.found && b.found
  events := a.events ++ b.events

/-- A report that only prints. -/
def printing (stdout : String) : Report := ⟨stdout, "", true, []⟩

end Report

/-- The code offset that an argument of a lookup means: itself if offsets were asked for, as far
as it fits, and otherwise its distance from the start of the code. -/
def lookupOffset? (exe : Executable) (offsets : Bool) (address : Address) : Option UInt32 :=
  if offsets then
    if address.value.toNat < UInt32.size then some address.value.toUInt32 else none
  else exe.codeOffset? address

/-- The code offset that an argument of a lookup means, and the source of the code there. -/
def lookupLocation? (exe : Executable) (offsets : Bool) (address : Address) :
    Option (UInt32 × Location) := do
  let offset ← lookupOffset? exe offsets address
  return (offset, ← exe.resolver.resolveAddress offset)

/-- Looks up one address. -/
def lookupOne (exe : Executable) (offsets : Bool) (address : Address) : Report :=
  match lookupLocation? exe offsets address with
  | some (offset, location) =>
    ⟨s!"{address.text}  {location.text}\n", "", true, [.resolved offset location]⟩
  | none => ⟨s!"{address.text}  ??:0\n", "", false, []⟩

/-- The address that a line begins at, which is its code offset in a bare blob. -/
def lineAddress (exe : Executable) (raw : Bool) (file : String) (line : UInt16) :
    Option Address :=
  if raw then (exe.resolver.resolveLine file line).1.map fun offset => ⟨offset.toUInt64⟩
  else exe.addressOf file line

/-- Carries a command out. -/
def Command.report (exe : Executable) : Command → Report
  | lookup _ addresses offsets =>
    (addresses.map (lookupOne exe offsets)).foldl Report.append .empty
  | line input file number =>
    match lineAddress exe input.raw file number with
    | some address => .printing s!"{address.text}\n"
    | none => ⟨"", s!"{file}:{number} has no recorded code\n", false, []⟩
  | dump _ => .printing exe.info.listing
  | directory _ => .printing exe.directoryListing

namespace Input

/-- The parser that the input asks for. -/
def parser (i : Input) : Parser :=
  Parser.default.set (.strict i.strict)

/-- The debug information in the content of the file. -/
def load (i : Input) (content : Except SystemError ByteArray) : Except LoadError Executable :=
  match content with
  | .error e => .error (.io e.message)
  | .ok source =>
    if i.raw then Executable.ofBlob i.parser source i.base
    else
      (Executable.ofImage i.parser source).mapError fun
        | .noDebugInfo _ => .noDebugInfo i.path
        | e => e

/-- The events before the input is read. -/
def opening (i : Input) : List Event :=
  [.loading i.path i.raw i.strict]

/-- The events of loading the debug information. -/
def trail (i : Input) (content : Except SystemError ByteArray) : List Event :=
  i.opening ++
  match content with
  | .error _ => []
  | .ok source =>
    if i.raw then i.parser.trail source i.base else Executable.imageTrail i.parser source

end Input

/-- The end of a run: what its command printed, or why there was nothing to carry it out on. -/
def Command.finish (command : Command) (plan : LogPlan)
    (content : Except SystemError ByteArray) : Outcome :=
  let trail := command.input.trail content
  match command.input.load content with
  | .error e => ⟨exitFailure, "", s!"Error: {e.message}\n", some (plan, plan.select trail)⟩
  | .ok exe =>
    let report := command.report exe
    ⟨if report.found then exitSuccess else exitNotFound, report.stdout, report.stderr,
      some (plan, plan.select (trail ++ report.events))⟩

/-! ## Runs -/

/-- Opens the file of a log, if it has one, for a run on a day. Its directory is made where it is
missing, and a run that cannot make it fails; one that cannot open the file crashes. Gives the spot
of the file. -/
def Folder.openLog (folder : Folder) (plan : LogPlan) (date : String)
    (failure : LogError → Outcome) : Except Outcome (Folder × Option Spot) :=
  match plan.file? with
  | none => .ok (folder, none)
  | some file =>
    match folder.makeDirectories file.directory with
    | .error e => .error (failure (.file e.message))
    | .ok folder =>
      match folder.openFile file.directory (file.nameOn date) with
      | .error e => .error (.crash s!"initializing rolling file appender failed: {e.message}")
      | .ok (folder, spot) => .ok (folder, some spot)

/-- The folder once bytes are written to the log file. -/
def Folder.log (folder : Folder) (spot? : Option Spot) (bytes : ByteArray) : Folder :=
  match spot? with
  | some spot => folder.append spot bytes
  | none => folder

/-- The folder that a run reads, with what is in the log file by then. -/
def LogPlan.readingFolder (plan : LogPlan) (c : Circumstances) (folder : Folder)
    (spot? : Option Spot) (opening : List Event) : Folder :=
  folder.log spot? (c.writer.early (plan.format.lines false c.fileStamps (plan.select opening)))

/-- A run once its log is planned: the file of the log is there before anything is read, and a run
that ends as a success waits for the writer. Gives the folder afterwards too. -/
def LogPlan.run (plan : LogPlan) (c : Circumstances) (folder : Folder) (date : String)
    (failure : LogError → Outcome) (opening : List Event) (act : Folder → Outcome) :
    Outcome × Folder :=
  match folder.openLog plan date failure with
  | .error outcome => (outcome, folder)
  | .ok (folder, spot?) =>
    let outcome := act (plan.readingFolder c folder spot? opening)
    let waits := outcome.exit == exitSuccess
    (outcome, folder.log spot? (c.writer.late waits (outcome.fileLines c)))

/-- Carries a session out within a folder. -/
def Session.act (s : Session) (folder : Folder) : Outcome :=
  s.command.finish s.plan (folder.read (.ofText s.command.input.path))

/-- A whole run within a folder on a day, and the folder afterwards. Arguments that are not
understood leave no outcome. -/
def runIn (c : Circumstances) (folder : Folder) (date : String) (args : List String)
    (env : Environment) : Except UsageError (Outcome × Folder) :=
  match Start.ofArguments args env with
  | .usageError e => .error e
  | .done outcome => .ok (outcome, folder)
  | .session s => .ok (s.plan.run c folder date .logFailure s.command.input.opening s.act)

/-- A whole run whose log is written at once. -/
def run (folder : Folder) (date : String) (args : List String) (env : Environment) :
    Except UsageError (Outcome × Folder) :=
  runIn .still folder date args env

end CodeView.CommandLine
