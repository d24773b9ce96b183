import CodeView.Proofs.CommandLine.Run
import CodeView.Proofs.Executable.Translation
import CodeView.Proofs.Parser.Expansion

/-!
# Looking up many addresses

The report of a look-up is the reports on its addresses one after the other, so what is printed for
many addresses is what is printed for each of them, and everything was found if each of them was. In
a bare blob an address is its own code offset, whichever way it is asked for.
-/

namespace CodeView.CommandLine

/-! ## One address -/

/-- The source of the code at an address, or at a code offset if offsets are asked for. -/
def sourceOf? (exe : Executable) (offsets : Bool) (a : Address) : Option Location :=
  if offsets then
    if a.value.toNat < UInt32.size then exe.resolver.resolveAddress a.value.toUInt32 else none
  else exe.resolve a

/-- A source as it is printed, with a stand-in where there is none. -/
def sourceText : Option Location → String
  | some location => location.text
  | none => "??:0"

theorem map_lookupLocation? (exe : Executable) (offsets : Bool) (a : Address) :
    (lookupLocation? exe offsets a).map Prod.snd = sourceOf? exe offsets a := by
  have hbind (offset? : Option UInt32) :
      (do
        let offset ← offset?
        return (offset, ← exe.resolver.resolveAddress offset) :
          Option (UInt32 × Location)).map Prod.snd =
        offset?.bind exe.resolver.resolveAddress := by
    cases offset? with
    | none => rfl
    | some offset => cases h : exe.resolver.resolveAddress offset <;> simp [h]
  rw [lookupLocation?, hbind, lookupOffset?, sourceOf?]
  cases offsets with
  | false => rfl
  | true => by_cases h : a.value.toNat < UInt32.size <;> simp [h]

/-- The report on an address is one line, with its source. -/
theorem lookupOne_eq (exe : Executable) (offsets : Bool) (a : Address) :
    (lookupOne exe offsets a).stdout =
        a.text ++ "  " ++ sourceText (sourceOf? exe offsets a) ++ "\n" ∧
      (lookupOne exe offsets a).found = (sourceOf? exe offsets a).isSome := by
  rw [← map_lookupLocation?, lookupOne]
  cases lookupLocation? exe offsets a with
  | none =>
    refine ⟨?_, rfl⟩
    rw [String.append_assoc, String.append_assoc]
    rfl
  | some found => exact ⟨rfl, rfl⟩

/-! ## Addresses of a bare blob -/

section Raw

variable {exe : Executable} {i : Input} {content : Except SystemError ByteArray}

/-- The code of a bare blob begins at the first address. -/
theorem bases_of_load (hraw : i.raw) (h : i.load content = .ok exe) :
    exe.imageBase = 0 ∧ exe.baseOfCode = 0 := by
  unfold Input.load at h
  split at h
  · cases h
  · rw [if_pos hraw, Executable.ofBlob] at h
    split at h
    · cases h
      exact ⟨rfl, rfl⟩
    · cases h

theorem lookupOffset?_eq (h : exe.imageBase = 0 ∧ exe.baseOfCode = 0) (a : Address) :
    lookupOffset? exe false a = lookupOffset? exe true a := by
  simp [lookupOffset?, Executable.codeOffset?, codeOffset?, Address.sub?, h.1, h.2]

theorem lineAddress_eq (h : exe.imageBase = 0 ∧ exe.baseOfCode = 0) (raw : Bool) (file : String)
    (line : UInt16) : lineAddress exe raw file line = exe.addressOf file line := by
  cases raw with
  | false => rfl
  | true =>
    have hsame (offset : UInt32) :
        CodeView.virtualAddress? exe.imageBase exe.baseOfCode offset = some ⟨offset.toUInt64⟩ := by
      rw [virtualAddress?_eq_some_iff, h.1, h.2]
      simp
    show (exe.resolver.resolveLine file line).1.map _ =
      (exe.resolver.resolveLine file line).1.bind
        (CodeView.virtualAddress? exe.imageBase exe.baseOfCode)
    cases (exe.resolver.resolveLine file line).1 with
    | none => rfl
    | some offset => exact (hsame offset).symm

/-- A look-up in a bare blob does not depend on what its addresses are taken for. -/
theorem report_lookup_eq (h : exe.imageBase = 0 ∧ exe.baseOfCode = 0) (addresses : List Address) :
    (Command.lookup i addresses false).report exe =
      (Command.lookup i addresses true).report exe := by
  have hone : lookupOne exe false = lookupOne exe true := by
    funext a
    rw [lookupOne, lookupOne, lookupLocation?, lookupLocation?, lookupOffset?_eq h]
  rw [Command.report, Command.report, hone]

end Raw

/-! ## How a look-up ends -/

section Ending

variable {plan : LogPlan} {content : Except SystemError ByteArray} {exe : Executable}

/-- Where there is an executable, a command ends with its report. -/
theorem finish_of_ok (plan : LogPlan) (command : Command)
    (h : command.input.load content = .ok exe) :
    (command.finish plan content).exit =
        (if (command.report exe).found then exitSuccess else exitNotFound) ∧
      (command.finish plan content).stdout = (command.report exe).stdout ∧
      (command.finish plan content).stderr = (command.report exe).stderr := by
  rw [Command.finish, h]
  exact ⟨rfl, rfl, rfl⟩

variable {input : Input} {offsets : Bool}

/-- Where nothing can be asked, all commands on an input end alike. -/
theorem finish_of_error {e : LoadError} (plan : LogPlan) (h : input.load content = .error e) :
    ∃ o : Outcome, o.exit = exitFailure ∧ o.stdout = "" ∧ o.stderr = s!"Error: {e.message}\n" ∧
      ∀ command : Command, command.input = input → command.finish plan content = o := by
  let log := plan.select (input.trail content)
  refine ⟨⟨exitFailure, "", s!"Error: {e.message}\n", some (plan, log)⟩, rfl, rfl, rfl, ?_⟩
  rintro command rfl
  rw [Command.finish, h]

/-- A look-up of one address ends with the line on it. -/
theorem finish_single (h : input.load content = .ok exe) (a : Address) :
    ((Command.lookup input [a] offsets).finish plan content).exit =
        (if (sourceOf? exe offsets a).isSome then exitSuccess else exitNotFound) ∧
      ((Command.lookup input [a] offsets).finish plan content).stdout =
        a.text ++ "  " ++ sourceText (sourceOf? exe offsets a) ++ "\n" := by
  obtain ⟨hexit, hstdout, -⟩ := finish_of_ok plan (.lookup input [a] offsets) h
  obtain ⟨hline, hfound⟩ := lookupOne_eq exe offsets a
  rw [hexit, hstdout, Report.lookup_eq, ← hline, ← hfound]
  simp

/-- A look-up of many addresses ends with what look-ups of each of them print, and as a success if
each of them does. -/
theorem finish_lookup (h : input.load content = .ok exe) (addresses : List Address) :
    let singles := addresses.map fun a => (Command.lookup input [a] offsets).finish plan content
    ((Command.lookup input addresses offsets).finish plan content).exit =
        (if ∀ o ∈ singles, o.exit = exitSuccess then exitSuccess else exitNotFound) ∧
      ((Command.lookup input addresses offsets).finish plan content).stdout =
        String.join (singles.map Outcome.stdout) ∧
      ((Command.lookup input addresses offsets).finish plan content).stderr = "" := by
  obtain ⟨hexit, hstdout, hstderr⟩ := finish_of_ok plan (.lookup input addresses offsets) h
  have hfound (a : Address) :
      ((Command.lookup input [a] offsets).finish plan content).exit = exitSuccess ↔
        (lookupOne exe offsets a).found := by
    rw [(finish_single h a).1, (lookupOne_eq exe offsets a).2]
    cases (sourceOf? exe offsets a).isSome <;> decide
  intro singles
  rw [hexit, hstdout, hstderr, Report.lookup_eq]
  refine ⟨?_, ?_, rfl⟩
  · simp [singles, hfound]
  · simp [singles, Function.comp_def, (finish_single h _).2, (lookupOne_eq exe offsets _).1]

/-- A raw input is looked up alike, whatever its addresses are taken for. -/
theorem ending_lookup_of_raw (hraw : input.raw) (addresses : List Address)
    (prepared : Except Outcome (LogPlan × Except SystemError ByteArray)) :
    (Command.lookup input addresses false).ending prepared =
      (Command.lookup input addresses true).ending prepared := by
  rcases prepared with outcome | ⟨plan, content⟩
  · rfl
  · simp only [Command.ending, Command.finish, Command.input]
    cases hload : input.load content with
    | error e => rfl
    | ok exe => simp only [report_lookup_eq (bases_of_load hraw hload)]

/-- A line of a raw input is found where the executable says that it begins. -/
theorem finish_line_of_raw (hraw : input.raw) (h : input.load content = .ok exe)
    (file : String) (line : UInt16) :
    match exe.addressOf file line with
    | some address =>
      ((Command.line input file line).finish plan content).exit = exitSuccess ∧
        ((Command.line input file line).finish plan content).stdout = address.text ++ "\n"
    | none =>
      ((Command.line input file line).finish plan content).exit = exitNotFound ∧
        ((Command.line input file line).finish plan content).stdout = "" := by
  obtain ⟨hexit, hstdout, -⟩ := finish_of_ok plan (.line input file line) h
  have hbases := bases_of_load hraw h
  rw [hexit, hstdout, Command.report, lineAddress_eq hbases]
  cases exe.addressOf file line with
  | none => exact ⟨rfl, rfl⟩
  | some address => exact ⟨rfl, rfl⟩

end Ending

/-- **What is looked up together is looked up one by one.** A look-up that is accepted is of at
least one address, and each of them can be looked up alone. If nothing can be loaded, all look-ups
fail with the same report and print nothing; and they fail alike, and print nothing, if the log
cannot be set up. Otherwise each prints a line with the source of its code, they print together, in
order, what they print alone, and succeed if each of them does. In a bare blob it does not matter
whether code offsets are asked for, and a line is printed with the address that the executable
gives it. -/
theorem lookup_one_by_one :
    (∀ args options input addresses offsets, Asks args options (.lookup input addresses offsets) →
      addresses ≠ [] ∧ ∃ singles,
        List.Forall₂ (fun a single => Asks single options (.lookup input [a] offsets))
          addresses singles) ∧
    ∀ c folder date env options input,
      (∀ o, prepare c folder date env options input = .error o →
        o.exit ≠ exitSuccess ∧ o.stdout = "" ∧
          ∀ args addresses offsets, Asks args options (.lookup input addresses offsets) →
            Ends c folder date env args o) ∧
      (∀ plan content e, prepare c folder date env options input = .ok (plan, content) →
        input.load content = .error e →
        ∃ o : Outcome, o.exit = exitFailure ∧ o.stdout = "" ∧
          o.stderr = s!"Error: {e.message}\n" ∧
          ∀ args addresses offsets, Asks args options (.lookup input addresses offsets) →
            Ends c folder date env args o) ∧
      (∀ plan content exe, prepare c folder date env options input = .ok (plan, content) →
        input.load content = .ok exe →
        ∀ args addresses offsets singles, Asks args options (.lookup input addresses offsets) →
          List.Forall₂ (fun a single => Asks single options (.lookup input [a] offsets))
            addresses singles →
          ∃ (o : Outcome) (os : List Outcome), Ends c folder date env args o ∧
            List.Forall₂ (Ends c folder date env) singles os ∧
            List.Forall₂ (fun a (o : Outcome) =>
              o.exit = (if (sourceOf? exe offsets a).isSome then exitSuccess else exitNotFound) ∧
              o.stdout = a.text ++ "  " ++ sourceText (sourceOf? exe offsets a) ++ "\n")
              addresses os ∧
            o.exit = (if ∀ o ∈ os, o.exit = exitSuccess then exitSuccess else exitNotFound) ∧
            o.stdout = String.join (os.map Outcome.stdout) ∧ o.stderr = "") ∧
      (input.raw →
        (∀ args args' addresses, Asks args options (.lookup input addresses false) →
          Asks args' options (.lookup input addresses true) →
          ∃ o, Ends c folder date env args o ∧ Ends c folder date env args' o) ∧
        ∀ plan content exe, prepare c folder date env options input = .ok (plan, content) →
          input.load content = .ok exe →
          ∀ args file line, Asks args options (.line input file line) →
            ∃ o, Ends c folder date env args o ∧
              match exe.addressOf file line with
              | some address => o.exit = exitSuccess ∧ o.stdout = address.text ++ "\n"
              | none => o.exit = exitNotFound ∧ o.stdout = "") := by
  constructor
  · intro args options input addresses offsets h
    obtain ⟨hoptions, hinput, hsome⟩ := sayable_of_asks h
    refine ⟨hsome, addresses.map fun a => written options (.lookup input [a] offsets), ?_⟩
    rw [List.forall₂_map_right_iff, List.forall₂_same]
    intro a _
    exact asks_written hoptions ⟨hinput, List.cons_ne_nil _ _⟩
  intro c folder date env options input
  refine ⟨?_, ?_, ?_, fun hraw => ⟨?_, ?_⟩⟩
  · intro o h
    obtain ⟨exit, stderr, hexit, rfl⟩ := unlogged_of_prepare h
    exact ⟨hexit, rfl, fun args addresses offsets hargs => hargs.ends_of_error h⟩
  · intro plan content e h hload
    obtain ⟨o, hexit, hstdout, hstderr, hends⟩ := finish_of_error plan hload
    refine ⟨o, hexit, hstdout, hstderr, fun args addresses offsets hargs => ?_⟩
    rw [← hends (.lookup input addresses offsets) rfl]
    exact hargs.ends_of_ok h
  · intro plan content exe h hload args addresses offsets singles hargs hsingles
    refine ⟨_, _, hargs.ends_of_ok h, ?_, ?_, finish_lookup hload addresses⟩
    · rw [List.forall₂_map_right_iff]
      refine hsingles.flip.imp fun single a hsingle => ?_
      have hone : Asks single options (.lookup input [a] offsets) := hsingle
      exact hone.ends_of_ok h
    · rw [List.forall₂_map_right_iff, List.forall₂_same]
      exact fun a _ => finish_single hload a
  · intro args args' addresses h h'
    refine ⟨_, h.ends, ?_⟩
    rw [ending_lookup_of_raw hraw]
    exact h'.ends
  · intro plan content exe h hload args file line hargs
    exact ⟨_, hargs.ends_of_ok h, finish_line_of_raw hraw hload file line⟩

/-- A folder with the file of a bare blob. -/
def blobFolder : Folder :=
  .ofFiles [("a.cv", Parser.sharedBlob)]

def sharedExecutable : Executable :=
  ⟨0, 0, Parser.sharedInfo⟩

theorem addressOf_sharedExecutable : sharedExecutable.addressOf "a" 7 = some ⟨2⟩ := by
  have recorded : (sharedExecutable.resolver.resolveLine "a" 7).1 = some 2 := by
    have scan : sharedExecutable.resolver.scanLine "a" 7 = some 2 := by decide +kernel
    exact ((Resolver.serves_ofModules _).resolveLine_eq_scanLine _ _).trans scan
  exact (congrArg (Option.bind · sharedExecutable.virtualAddress?) recorded).trans
    (by decide +kernel)

theorem lookup_one_by_one_sharedBlob :
    let ends := Ends .still blobFolder "2026-08-14" ⟨none, none, none⟩
    (∃ (o : Outcome) (os : List Outcome), ends ["lookup", "--raw", "a.cv", "2", "0x100000002"] o ∧
      List.Forall₂ ends
        [["lookup", "a.cv", "0x2", "--raw"], ["lookup", "--raw", "--", "a.cv", "4294967298"]] os ∧
      List.Forall₂ (fun a (o : Outcome) =>
        o.exit = (if (sourceOf? sharedExecutable false a).isSome then exitSuccess
          else exitNotFound) ∧
        o.stdout = a.text ++ "  " ++ sourceText (sourceOf? sharedExecutable false a) ++ "\n")
        [⟨2⟩, ⟨0x100000002⟩] os ∧
      o.exit = (if ∀ o ∈ os, o.exit = exitSuccess then exitSuccess else exitNotFound) ∧
      o.stdout = String.join (os.map Outcome.stdout) ∧ o.stderr = "") ∧
    (∃ o : Outcome, o.exit = exitFailure ∧ o.stdout = "" ∧
      ends ["lookup", "b.cv", "2"] o ∧ ends ["lookup", "b.cv", "3", "4"] o) ∧
    (∃ o : Outcome, o.exit ≠ exitSuccess ∧ o.stdout = "" ∧
      ends ["lookup", "a.cv", "2", "--log-file", ".."] o) ∧
    (∃ o, ends ["lookup", "--raw", "a.cv", "2"] o ∧
      ends ["lookup", "--raw", "a.cv", "2", "--offset"] o) ∧
    ∃ o, ends ["line", "--raw", "a.cv", "a", "7"] o ∧
      o.exit = exitSuccess ∧ o.stdout = "0x00000002\n" := by
  intro ends
  obtain ⟨-, together⟩ := lookup_one_by_one
  obtain ⟨-, -, found, raw⟩ := together .still blobFolder "2026-08-14" ⟨none, none, none⟩
    ⟨none, none, none⟩ ⟨"a.cv", true, 0, false⟩
  obtain ⟨-, missing, -⟩ := together .still blobFolder "2026-08-14" ⟨none, none, none⟩
    ⟨none, none, none⟩ ⟨"b.cv", false, 0, false⟩
  obtain ⟨unlogged, -⟩ := together .still blobFolder "2026-08-14" ⟨none, none, none⟩
    ⟨none, none, some ".."⟩ ⟨"a.cv", false, 0, false⟩
  obtain ⟨offsets, line⟩ := raw rfl
  have prepared : prepare .still blobFolder "2026-08-14" ⟨none, none, none⟩ ⟨none, none, none⟩
      ⟨"a.cv", true, 0, false⟩ =
        .ok (⟨.pretty, .ofLevel .warn, true, none⟩, .ok Parser.sharedBlob) := by
    decide +kernel
  have loaded : (⟨"a.cv", true, 0, false⟩ : Input).load (.ok Parser.sharedBlob) =
      .ok sharedExecutable := by
    decide +kernel
  refine ⟨found _ _ _ prepared loaded _ [⟨2⟩, ⟨0x100000002⟩] false _ (by decide +kernel)
    (.cons (by decide +kernel) (.cons (by decide +kernel) .nil)), ?_, ?_,
    offsets _ _ [⟨2⟩] (by decide +kernel) (by decide +kernel), ?_⟩
  · obtain ⟨o, hexit, hstdout, -, hends⟩ :=
      missing ⟨.pretty, .ofLevel .warn, true, none⟩ (.error .notFound)
        (.io "No such file or directory (os error 2)") (by decide +kernel) (by decide +kernel)
    exact ⟨o, hexit, hstdout, hends _ [⟨2⟩] false (by decide +kernel),
      hends _ [⟨3⟩, ⟨4⟩] false (by decide +kernel)⟩
  · obtain ⟨hexit, hstdout, hends⟩ :=
      unlogged (.logFailure (.invalidPath "..")) (by decide +kernel)
    exact ⟨_, hexit, hstdout, hends _ [⟨2⟩] false (by decide +kernel)⟩
  · obtain ⟨o, hends, hmatch⟩ := line _ _ _ prepared loaded ["line", "--raw", "a.cv", "a", "7"] "a"
      7 (by decide +kernel)
    rw [addressOf_sharedExecutable] at hmatch
    exact ⟨o, hends, hmatch.1, hmatch.2.trans (by decide +kernel)⟩

end CodeView.CommandLine
