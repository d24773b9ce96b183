import CodeView.CommandLine.Session

/-!
# The resolve program

A smaller program beside the main one: it prints the sources of the addresses it is given, then
the address of the first line of the first file that has one, and does not judge the result.
-/

namespace CodeView.CommandLine.Resolve

/-- What the program prints about one argument. -/
def resolveOne (exe : Executable) (arg : String) : Report :=
  match Address.ofText arg with
  | .error _ => ⟨"", s!"Skipping {arg}: not an address\n", true, []⟩
  | .ok address =>
    match lookupLocation? exe false address with
    | some (offset, location) =>
      ⟨s!"{address.text} -> {location.text}\n", "", true, [.resolved offset location]⟩
    | none => ⟨s!"{address.text} -> (no line information)\n", "", true, []⟩

/-- The first line of the first file whose first table has one. -/
def firstLine? (exe : Executable) : Option (String × UInt16) :=
  exe.resolver.files.findSome? fun file =>
    (file.tables.head?.bind (·.lines[0]?)).map fun line => (file.name, line)

/-- What the program prints about that line. -/
def firstLineReport (exe : Executable) : Report :=
  match firstLine? exe with
  | none => .empty
  | some (file, line) =>
    match exe.addressOf file line with
    | none => .empty
    | some address => .printing s!"{file}:{line} starts at {address.text}\n"

/-- The plan of the log: what is worth knowing, on the console. -/
def plan (env : Environment) : Except LogError LogPlan :=
  LogPlan.onConsole .pretty (some .info) env

/-- Carries the program out on an input file. -/
def finish (plan : LogPlan) (path : String) (args : List String)
    (content : Except SystemError ByteArray) : Outcome :=
  let input : Input := ⟨path, false, 0, false⟩
  let trail := (input.trail content).drop input.opening.length
  match input.load content with
  | .error e => ⟨exitFailure, "", s!"Error: {e.message}\n", some (plan, plan.select trail)⟩
  | .ok exe =>
    let report := ((args.map (resolveOne exe)).foldl Report.append .empty).append
      (firstLineReport exe)
    ⟨exitSuccess, report.stdout, report.stderr,
      some (plan, plan.select (trail ++ report.events))⟩

/-- The end of a run without arguments. -/
def usage (plan : LogPlan) : Outcome :=
  ⟨exitFailure, "", "usage: resolve <EXE> [ADDR]...\n", some (plan, plan.select [])⟩

/-- Carries the program out within a folder. -/
def act (plan : LogPlan) (args : List String) (folder : Folder) : Outcome :=
  match args with
  | [] => usage plan
  | path :: args => finish plan path args (folder.read (.ofText path))

/-- A run that ends because its log cannot be set up. -/
def logFailure (e : LogError) : Outcome :=
  .crash s!"Failed to initialize logging: {e.message}"

/-- A whole run within a folder on a day, and the folder afterwards. -/
def runIn (c : Circumstances) (folder : Folder) (date : String) (args : List String)
    (env : Environment) : Outcome × Folder :=
  match plan env with
  | .error e => (logFailure e, folder)
  | .ok plan => plan.run c folder date logFailure [] (act plan args)

/-- A whole run whose log is written at once. -/
def run (folder : Folder) (date : String) (args : List String) (env : Environment) :
    Outcome × Folder :=
  runIn .still folder date args env

end CodeView.CommandLine.Resolve
