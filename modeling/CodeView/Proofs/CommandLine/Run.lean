import CodeView.CommandLine.Session
import CodeView.Proofs.CommandLine.Folder

/-!
# Runs of a command

A run that is asked for a command settles two things before it carries the command out: the plan of
its log, and the content of its input (`prepare`). Where the log cannot be set up it ends there.
Otherwise the command ends the run with them (`Asks.ends`), so runs that agree on both agree on how
they end. The file of the log is opened with the content that it had (`holds_of_openLog`). The
report of a look-up is the reports on its addresses one after the other (`Report.lookup_eq`).
-/

namespace CodeView.CommandLine

variable {c : Circumstances} {folder : Folder} {date : String} {env : Environment}
  {args : List String} {options : LogOptions} {command : Command}

/-- The run of the arguments ends with an outcome, whatever it leaves in the folder. -/
def Ends (c : Circumstances) (folder : Folder) (date : String) (env : Environment)
    (args : List String) (outcome : Outcome) : Prop :=
  ∃ after, runIn c folder date args env = .ok (outcome, after)

/-- The plan of the log of a run, and the content of its input, which is read when the log is in
place; or else the end of a run whose log cannot be set up. -/
def prepare (c : Circumstances) (folder : Folder) (date : String) (env : Environment)
    (options : LogOptions) (input : Input) :
    Except Outcome (LogPlan × Except SystemError ByteArray) :=
  match LogPlan.choose options env with
  | .error e => .error (.logFailure e)
  | .ok plan =>
    match folder.openLog plan date .logFailure with
    | .error outcome => .error outcome
    | .ok (folder, spot?) =>
      .ok (plan, (plan.readingFolder c folder spot? input.opening).read (.ofText input.path))

/-- How a command ends a run. -/
def Command.ending (command : Command) :
    Except Outcome (LogPlan × Except SystemError ByteArray) → Outcome
  | .error outcome => outcome
  | .ok (plan, content) => command.finish plan content

theorem Asks.ends (h : Asks args options command) :
    Ends c folder date env args
      (command.ending (prepare c folder date env options command.input)) := by
  unfold Asks at h
  unfold Ends runIn Start.ofArguments prepare
  simp only [h]
  cases LogPlan.choose options env with
  | error e => exact ⟨folder, rfl⟩
  | ok plan =>
    simp only [LogPlan.run]
    cases folder.openLog plan date .logFailure with
    | error outcome => exact ⟨folder, rfl⟩
    | ok opened => exact ⟨_, rfl⟩

section Prepared

variable {outcome : Outcome} {plan : LogPlan} {content : Except SystemError ByteArray}

theorem Asks.ends_of_error (h : Asks args options command)
    (hprepare : prepare c folder date env options command.input = .error outcome) :
    Ends c folder date env args outcome := by
  have hends : Ends c folder date env args _ := h.ends
  rwa [hprepare] at hends

theorem Asks.ends_of_ok (h : Asks args options command)
    (hprepare : prepare c folder date env options command.input = .ok (plan, content)) :
    Ends c folder date env args (command.finish plan content) := by
  have hends : Ends c folder date env args _ := h.ends
  rwa [hprepare] at hends

theorem unlogged_of_openLog (h : folder.openLog plan date .logFailure = .error outcome) :
    ∃ exit stderr, exit ≠ exitSuccess ∧ outcome = .unlogged exit "" stderr := by
  unfold Folder.openLog at h
  split at h
  · cases h
  · split at h
    · cases h
      exact ⟨exitFailure, _, by decide, rfl⟩
    · split at h <;> cases h
      exact ⟨exitCrash, _, by decide, rfl⟩

/-- A run whose log cannot be set up fails, and prints nothing but why. -/
theorem unlogged_of_prepare {input : Input}
    (h : prepare c folder date env options input = .error outcome) :
    ∃ exit stderr, exit ≠ exitSuccess ∧ outcome = .unlogged exit "" stderr := by
  unfold prepare at h
  split at h
  · cases h
    exact ⟨exitFailure, _, by decide, rfl⟩
  · split at h
    case h_1 hopen =>
      cases h
      exact unlogged_of_openLog hopen
    case h_2 => cases h

end Prepared

/-! ## The file of the log -/

section Opened

variable {plan : LogPlan} {failure : LogError → Outcome} {opened : Folder} {spot? : Option Spot}

theorem openLog_of_none (h : plan.file? = none)
    (hopen : folder.openLog plan date failure = .ok (opened, spot?)) :
    opened = folder ∧ spot? = none := by
  rw [Folder.openLog, h] at hopen
  cases hopen
  exact ⟨rfl, rfl⟩

/-- The file of the log is open with the content that it had, and the others are as they were. -/
theorem holds_of_openLog {file : LogFile} (h : file ∈ plan.file?)
    (hopen : folder.openLog plan date failure = .ok (opened, spot?)) :
    ∃ spot, spot? = some spot ∧
      opened.Holds file.directory (file.nameOn date) spot
        ((folder.files.lookup spot).getD .empty) ∧
      ∀ s, s ≠ spot → opened.files.lookup s = folder.files.lookup s := by
  rw [Folder.openLog, Option.mem_def.1 h] at hopen
  simp only at hopen
  split at hopen
  case h_1 => cases hopen
  case h_2 made hmade =>
    split at hopen
    case h_1 => cases hopen
    case h_2 opened spot hfile =>
      cases hopen
      rw [← Folder.files_makeDirectories hmade]
      exact ⟨spot, rfl, Folder.holds_openFile hfile⟩

end Opened

/-! ## Reports one after the other -/

namespace Report

theorem foldl_append (reports : List Report) (init : Report) :
    reports.foldl append init =
      ⟨init.stdout ++ String.join (reports.map stdout),
        init.stderr ++ String.join (reports.map stderr),
        init.found && reports.all found, init.events ++ reports.flatMap events⟩ := by
  induction reports generalizing init with
  | nil => simp
  | cons report rest ih => simp [ih, append, String.append_assoc, Bool.and_assoc]

/-- The report of a look-up. -/
theorem lookup_eq (exe : Executable) (input : Input) (addresses : List Address) (offsets : Bool) :
    (Command.lookup input addresses offsets).report exe =
      ⟨String.join (addresses.map fun a => (lookupOne exe offsets a).stdout), "",
        addresses.all fun a => (lookupOne exe offsets a).found,
        addresses.flatMap fun a => (lookupOne exe offsets a).events⟩ := by
  have hstderr (a : Address) : (lookupOne exe offsets a).stderr = "" := by
    unfold lookupOne
    split <;> rfl
  have hquiet : String.join (addresses.map fun a => (lookupOne exe offsets a).stderr) = "" := by
    induction addresses with
    | nil => rfl
    | cons a rest ih => rw [List.map_cons, String.join_cons, hstderr, ih, String.empty_append]
  rw [Command.report, foldl_append]
  simp [empty, Function.comp_def, List.flatMap_map, hquiet]

end Report

end CodeView.CommandLine
