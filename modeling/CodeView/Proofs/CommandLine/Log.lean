import CodeView.Proofs.CommandLine.Run
import CodeView.Proofs.Log.Line
import CodeView.Proofs.Log.Trail

/-!
# The log of a run

The events of a run are fixed before the plan of its log selects from them (`Command.events`), so
two plans that differ in their levels leave the same results and differ in what they select alone;
unless the log goes to the file that is read (`logsToInput`). What is selected at the information
level or above is what the parse reports (`Command.atLeast_events`), and the text of the log, where
the plan has it, tells just what is selected (`Stands`).
-/

namespace CodeView

open Log (Event Filter Level)
open Log.Event (atLeast atLeast_append atLeast_eq_nil_iff)

/-! ## Levels -/

namespace Log.Filter

/-- The filter takes every event that is at least as severe as a level. -/
def Shows (f : Filter) (level : Level) : Prop :=
  ∀ e : Event, e.level.rank ≤ level.rank → f.takes e

end Log.Filter

namespace CommandLine

namespace LogPlan

variable {plan : LogPlan} {severity : Level} {events : List Event}

/-- A plan that shows some events selects them all, and adds none of them. -/
theorem filter_select (h : plan.filter.Shows severity)
    (hseverity : severity.rank ≤ Level.info.rank)
    {q : Event → Bool} (hq : ∀ e, q e → e.level.rank ≤ severity.rank) :
    (plan.select events).filter q = events.filter q := by
  have hopening : (plan.file?.toList.map fun file => Event.logFile file.path).filter q = [] := by
    simp only [List.filter_eq_nil_iff, List.mem_map]
    rintro _ ⟨file, -, rfl⟩ hfile
    have hlevel : Level.debug.rank ≤ severity.rank := hq _ hfile
    exact absurd (hlevel.trans hseverity) (by decide)
  have hshown : ∀ e, (q e && plan.filter.takes e) = q e := by
    intro e
    cases he : q e with
    | false => rfl
    | true => exact h e (hq e he)
  rw [select, List.filter_filter, List.filter_congr fun e _ => hshown e, List.filter_append,
    hopening, List.nil_append]

end LogPlan

/-! ## Events of a run -/

/-- What loading an input reports of at least the information level. -/
theorem Input.atLeast_trail (i : Input) (content : Except SystemError ByteArray) :
    atLeast .info (i.trail content) =
      match i.load content with
      | .ok exe => exe.info.issues.map .dropped ++ Parser.summary exe.info ::
          if i.raw then []
          else [.loaded exe.info.signature exe.imageBase exe.baseOfCode]
      | .error _ => [] := by
  have hopening : atLeast .info i.opening = [] := rfl
  unfold Input.trail Input.load
  rw [atLeast_append, hopening, List.nil_append]
  cases content with
  | error e => rfl
  | ok source =>
    by_cases hraw : i.raw
    · simp only [hraw, if_true]
      rw [i.parser.atLeast_trail, Executable.ofBlob]
      cases i.parser.parse source i.base <;> rfl
    · simp only [hraw, Bool.false_eq_true, if_false]
      rw [Executable.atLeast_imageTrail]
      cases Executable.ofImage i.parser source with
      | error e => cases e <;> rfl
      | ok exe => rfl

namespace Command

/-- The events of carrying out a command. -/
def events (command : Command) (content : Except SystemError ByteArray) : List Event :=
  command.input.trail content ++
    match command.input.load content with
    | .ok exe => (command.report exe).events
    | .error _ => []

/-- The answers of a command are reported for tracing alone. -/
theorem atLeast_report (exe : Executable) (command : Command) :
    atLeast .info (command.report exe).events = [] := by
  cases command with
  | lookup input addresses offsets =>
    rw [Report.lookup_eq, atLeast_eq_nil_iff]
    simp only [List.mem_flatMap]
    rintro e ⟨a, -, he⟩
    unfold lookupOne at he
    split at he
    · rw [List.mem_singleton.1 he]
      exact (by decide : Level.info.rank < Level.trace.rank)
    · cases he
  | line input file number =>
    rw [Command.report]
    split <;> rfl
  | dump | directory => rfl

theorem atLeast_events (command : Command) (content : Except SystemError ByteArray) :
    atLeast .info (command.events content) = atLeast .info (command.input.trail content) := by
  unfold events
  rw [atLeast_append]
  cases command.input.load content with
  | error e => simp [atLeast]
  | ok exe => rw [atLeast_report, List.append_nil]

end Command

/-! ## The story of a run -/

section Levels

variable {c c' : Circumstances} {folder opened : Folder} {date : String} {env : Environment}
  {options : LogOptions} {format? : Option Log.Format} {file? : Option String} {input : Input}
  {plan : LogPlan} {content : Except SystemError ByteArray} {spot? : Option Spot}

end Levels

/-! ## The text of the log -/

/-- Where the file of the log is, if a run within a folder has one. -/
def LogPlan.spot? (plan : LogPlan) (folder : Folder) (date : String) : Option Spot :=
  match folder.openLog plan date .logFailure with
  | .ok (_, spot?) => spot?
  | .error _ => none

/-- The log of a run stands where its plan has it. On the console it comes before what the run says
for itself, which stands alone there if the log goes elsewhere. The file of the log is found by its
directory and its name, and no other is touched. What was in it stays, and the log is added to it if
the run ends as a success, so that it waits for the writer, and the writer can keep all lines. -/
structure Stands (c : Circumstances) (before after : Folder) (date : String) (plan : LogPlan)
    (log : List Event) (o : Outcome) : Prop where
  console : plan.console → ∃ text, o.errorText c = text ++ o.stderr ∧ plan.format.Tells log text
  silent : plan.console = false → o.errorText c = o.stderr
  file : ∀ file ∈ plan.file?, ∃ spot added, plan.spot? before date = some spot ∧
    after.Holds file.directory (file.nameOn date) spot
      ((before.files.lookup spot).getD .empty ++ added) ∧
    (∀ s, s ≠ spot → after.files.lookup s = before.files.lookup s) ∧
    (spot ≠ Spot.nullDevice → o.exit = exitSuccess → log.length ≤ Writer.room →
      ∃ text, added = text.toUTF8 ∧ plan.format.Tells log text)
  unfiled : plan.file? = none → after = before

theorem stands {c : Circumstances} {folder opened : Folder} {date : String} {plan : LogPlan}
    {spot? : Option Spot} {o : Outcome} {log : List Event}
    (hopen : folder.openLog plan date .logFailure = .ok (opened, spot?))
    (hlog : o.log? = some (plan, log)) :
    Stands c folder (opened.log spot? (c.writer.late (o.exit == exitSuccess) (o.fileLines c)))
      date plan log o := by
  constructor
  case console =>
    intro hconsole
    refine ⟨_, ?_, plan.format.tells_lines true c.consoleStamps log⟩
    simp only [Outcome.errorText, Outcome.consoleLog, hlog, hconsole, if_true]
  case silent =>
    intro hconsole
    simp [Outcome.errorText, Outcome.consoleLog, hlog, hconsole]
  case file =>
    intro file hfile
    obtain ⟨spot, rfl, hholds, hothers⟩ := holds_of_openLog hfile hopen
    have hspot? : plan.spot? folder date = some spot := by
      rw [LogPlan.spot?, hopen]
    let bytes := c.writer.late (o.exit == exitSuccess) (o.fileLines c)
    have hafter := hholds.append bytes
    obtain ⟨added, hadded, hbytes⟩ :=
      Folder.exists_grown_eq spot bytes ((folder.files.lookup spot).getD .empty)
    rw [hadded] at hafter
    refine ⟨spot, added, hspot?, hafter, fun s hs => ?_, fun hspot hexit hroom => ?_⟩
    · exact (Folder.lookup_append_of_ne hs).trans (hothers s hs)
    · have hlines : o.fileLines c = plan.format.lines false c.fileStamps log := by
        simp only [Outcome.fileLines, hlog]
      have hlength : (o.fileLines c).length ≤ Writer.room := by
        simpa [hlines, Log.Format.lines] using hroom
      refine ⟨_, ?_, plan.format.tells_lines false c.fileStamps log⟩
      rw [hbytes hspot, ← hlines, ← c.writer.late_of_waits _ hlength]
      simp only [bytes, hexit, beq_self_eq_true]
  case unfiled =>
    intro hfile
    obtain ⟨rfl, rfl⟩ := openLog_of_none hfile hopen
    rfl

/-! ## What the log tells of the result -/

/-- What the records of a log say, and how severe they are. -/
def recordsOf (events : List Event) : List (Level × String) :=
  events.map fun e => (e.level, e.message)

/-- The log of a run that has loaded the debug information of an input tells what it has come to:
one warning for each issue, in the order of the directory, and behind them one summary, whose counts
add up to the entries of the directory. -/
structure Reports (input : Input) (exe : Executable) (plan : LogPlan) (log : List Event) :
    Prop where
  counted : exe.info.subsections.length + exe.info.issues.length =
    exe.info.header.entryCount.toNat
  ordered : exe.info.issues.Pairwise fun a b => a.index < b.index
  strict : input.strict → exe.info.issues = []
  warnings : plan.filter.Shows .warn →
    (log.filter (·.level = .warn)).map Event.message =
      exe.info.issues.map fun issue => "Dropping subsection " ++ issue.message
  records : plan.filter.Shows .info →
    let n := exe.info.subsections.length
    let m := exe.info.sourceModules.length
    let d := exe.info.issues.length
    recordsOf (atLeast .info log) =
      (exe.info.issues.map fun issue => (.warn, "Dropping subsection " ++ issue.message)) ++
        (.info, s!"Parsed {n} subsections ({m} source modules, {d} dropped)") ::
        if input.raw then []
        else
          [(.info, (Event.loaded exe.info.signature exe.imageBase exe.baseOfCode).message)]

theorem parse_of_load {i : Input} {exe : Executable} {content : Except SystemError ByteArray}
    (h : i.load content = .ok exe) :
    ∃ source base, i.parser.parse source base = .ok exe.info := by
  unfold Input.load at h
  cases content with
  | error e => cases h
  | ok source =>
    by_cases hraw : i.raw
    · rw [hraw] at h
      change Executable.ofBlob i.parser source i.base = .ok exe at h
      unfold Executable.ofBlob at h
      split at h
      case h_1 info hparse =>
        cases h
        exact ⟨_, _, hparse⟩
      case h_2 => cases h
    · simp only [hraw, Bool.false_eq_true, if_false] at h
      unfold Executable.ofImage at h
      split at h
      case h_3 blob _ =>
        split at h
        case h_1 info hparse =>
          cases h
          exact ⟨_, _, hparse⟩
        case h_2 => cases h
      all_goals cases h

theorem reports {command : Command} {exe : Executable} {plan : LogPlan}
    {content : Except SystemError ByteArray} (h : command.input.load content = .ok exe) :
    Reports command.input exe plan (plan.select (command.events content)) := by
  obtain ⟨source, base, hparse⟩ := parse_of_load h
  have hevents : atLeast .info (command.events content) =
      exe.info.issues.map .dropped ++ Parser.summary exe.info ::
        if command.input.raw then []
        else [.loaded exe.info.signature exe.imageBase exe.baseOfCode] := by
    rw [command.atLeast_events, Input.atLeast_trail, h]
  constructor
  case counted => exact Parser.length_subsections_add_length_issues hparse
  case ordered => exact Parser.pairwise_issues_of_parse rfl (Parser.parse_lenient_of_ok hparse)
  case strict =>
    intro hstrict
    exact Parser.issues_of_strict hstrict hparse
  case warnings =>
    intro hshows
    have hwarn : ∀ e : Event, decide (e.level = .warn) → e.level.rank ≤ Level.warn.rank := by
      intro e he
      rw [of_decide_eq_true he]
    have hinfo : ∀ e : Event, decide (e.level = .warn) → e.level.rank ≤ Level.info.rank :=
      fun e he => (hwarn e he).trans (by decide)
    rw [LogPlan.filter_select hshows (by decide) hwarn, ← Event.filter_atLeast _ hinfo, hevents,
      List.filter_append, List.map_append, List.filter_map]
    have hdropped : exe.info.issues.filter
        ((fun e : Event => decide (e.level = .warn)) ∘ Event.dropped) = exe.info.issues :=
      List.filter_eq_self.2 fun _ _ => rfl
    have hrest : (Parser.summary exe.info :: if command.input.raw then []
        else [.loaded exe.info.signature exe.imageBase exe.baseOfCode]).filter
        (fun e => decide (e.level = .warn)) = [] := by
      cases command.input.raw <;> rfl
    rw [hdropped, hrest, List.map_map, List.map_nil, List.append_nil]
    rfl
  case records =>
    intro hshows
    have hselect : atLeast .info (plan.select (command.events content)) =
        atLeast .info (command.events content) :=
      LogPlan.filter_select hshows (by decide) fun e he => of_decide_eq_true he
    rw [hselect, hevents, recordsOf, List.map_append, List.map_map]
    congr 1
    by_cases hraw : command.input.raw
    · simp only [hraw, if_true]
      rfl
    · simp only [hraw]
      rfl

section Runs

variable {c c' : Circumstances} {folder : Folder} {date : String} {env : Environment}
  {args args' : List String} {command : Command}

end Runs

end CommandLine

end CodeView
