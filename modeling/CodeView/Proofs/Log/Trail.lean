import CodeView.Log.Trail
import CodeView.Proofs.Parser.Growth

/-!
# What is reported

A parse that reports its events comes to what a parse without them comes to. Of the events that are
at least of the information level, the walk over the directory reports exactly the issues that it
has found so far (`Told`), each step and so the whole walk; behind them a parse that succeeds reports
what it has come to, and one that fails has reported none of these.
-/

namespace CodeView

open Log (Event Level)

/-- The events that are at least as severe as a level. -/
def Log.Event.atLeast (level : Level) (events : List Event) : List Event :=
  events.filter fun e => e.level.rank ≤ level.rank

namespace Log.Event

theorem atLeast_append (level : Level) (events later : List Event) :
    atLeast level (events ++ later) = atLeast level events ++ atLeast level later :=
  List.filter_append events later

theorem atLeast_eq_nil_iff {level : Level} {events : List Event} :
    atLeast level events = [] ↔ ∀ e ∈ events, level.rank < e.level.rank := by
  simp [atLeast, List.filter_eq_nil_iff]

/-- What is picked from severe events alone is picked from the severe events. -/
theorem filter_atLeast {level : Level} {q : Event → Bool} (events : List Event)
    (hq : ∀ e, q e → e.level.rank ≤ level.rank) :
    (atLeast level events).filter q = events.filter q := by
  rw [atLeast, List.filter_filter]
  refine List.filter_congr fun e _ => ?_
  cases he : q e with
  | false => rfl
  | true => simpa using hq e he

end Log.Event

open Log.Event (atLeast atLeast_append atLeast_eq_nil_iff)

namespace Parser

variable {p : Parser} {source : ByteArray} {base index : Nat} {found : Findings}
  {log : Array Event} {entry : DirectoryEntry}

/-- The trail of decoding is for tracing alone. -/
theorem atLeast_entryTrail (p : Parser) (source : ByteArray) (base : Nat)
    (entry : DirectoryEntry) : atLeast .info (p.entryTrail source base entry) = [] := by
  rw [atLeast_eq_nil_iff]
  unfold entryTrail
  split
  · simp [Event.level, Level.rank]
  · split
    · simp
    · simp [Event.level, Level.rank]

/-! ## The walk -/

/-- The log tells of the issues found so far, and of nothing else that is as severe; a strict walk
has found none. -/
structure Told (p : Parser) (found : Findings) (log : Array Event) : Prop where
  dropped : atLeast .info log.toList = found.issues.toList.map .dropped
  strict : p.strict → found.issues = #[]

/-- A step that reports comes to what the step comes to. On success the log tells of what was found,
and on failure of nothing. -/
def Tells (p : Parser) (x : Except FormatError Findings) :
    EStateM.Result FormatError (Array Event) Findings → Prop
  | .ok found log => x = .ok found ∧ p.Told found log
  | .error e log => x = .error e ∧ atLeast .info log.toList = []

theorem Told.note (h : p.Told found log) {events : List Event}
    (hquiet : atLeast .info events = []) : p.Told found (log ++ events) := by
  refine ⟨?_, h.strict⟩
  rw [Array.toList_appendList, atLeast_append, h.dropped, hquiet, List.append_nil]

theorem settleNoting_error (p : Parser) (found : Findings) (index : Nat) (entry : DirectoryEntry)
    (e : FormatError) (log : Array Event) :
    let issue : Issue := ⟨index, entry.kind, entry.moduleIndex, e⟩
    p.settleNoting found index entry (.error e) log =
      if p.strict then .error e log
      else .ok { found with issues := found.issues.push issue } (log ++ [Event.dropped issue]) := by
  rw [settleNoting]
  cases p.strict <;> rfl

/-- Adding what became of one entry. -/
theorem Told.settle (h : p.Told found log) (index : Nat) (entry : DirectoryEntry)
    (outcome : Except FormatError Record) :
    p.Tells (p.settle found index entry outcome)
      (p.settleNoting found index entry outcome log) := by
  cases outcome with
  | ok record => exact ⟨rfl, h.dropped, h.strict⟩
  | error e =>
    rw [settleNoting_error, Parser.settle]
    by_cases hp : p.strict
    · rw [if_pos hp, if_pos hp]
      refine ⟨rfl, ?_⟩
      rw [h.dropped, h.strict hp]
      rfl
    · rw [if_neg hp, if_neg hp]
      refine ⟨rfl, ?_, fun hstrict => absurd hstrict hp⟩
      rw [Array.toList_appendList, atLeast_append, h.dropped, Array.toList_push, List.map_append]
      rfl

/-- The walk over any entries. -/
theorem Told.collect (h : p.Told found log) (source : ByteArray) (base index : Nat)
    (entries : List DirectoryEntry) :
    p.Tells (p.collect source base found index entries)
      (p.collectNoting source base found index entries log) := by
  -- what the entries before have left is the invariant `Told`, whatever was found and reported
  induction entries generalizing found log index with
  | nil => exact ⟨rfl, h⟩
  | cons entry rest ih =>
    have hstep := (h.note (p.atLeast_entryTrail source base entry)).settle index entry
      (p.outcome source base entry)
    rw [Parser.collect, collectNoting]
    show p.Tells _ (EStateM.bind (p.settleNoting found index entry (p.outcome source base entry)) _
      (log ++ p.entryTrail source base entry))
    unfold EStateM.bind
    cases hresult : p.settleNoting found index entry (p.outcome source base entry)
        (log ++ p.entryTrail source base entry) with
    | ok next log' =>
      rw [hresult] at hstep
      rw [hstep.1]
      exact ih hstep.2 (index + 1)
    | error e log' =>
      rw [hresult] at hstep
      rw [hstep.1]
      exact ⟨rfl, hstep.2⟩

/-! ## The parse -/

/-- The summary of a result. -/
def summary (info : DebugInfo) : Event :=
  .parsed info.subsections.length info.sourceModules.length info.issues.length

theorem told_nothing : p.Told ⟨#[], #[]⟩ #[] :=
  ⟨rfl, fun _ => rfl⟩

/-- What is reported ahead of the walk. -/
def opening (signature : Signature) (base : Nat) (offset : UInt32) (directory : Directory) :
    Array Event :=
  (#[] : Array Event) ++ [Event.blobHeader signature base offset] ++
    [Event.directory (base + offset.toNat) base directory.entries.length] ++
    directory.entries.map Event.entry

theorem told_opening (p : Parser) (signature : Signature) (base : Nat) (offset : UInt32)
    (directory : Directory) :
    p.Told ⟨#[], #[]⟩ (opening signature base offset directory) := by
  have hheader : atLeast .info [Event.blobHeader signature base offset] = [] := rfl
  have hdirectory : atLeast .info
      [Event.directory (base + offset.toNat) base directory.entries.length] = [] := rfl
  have hentries : atLeast .info (directory.entries.map Event.entry) = [] := by
    simp [atLeast_eq_nil_iff, Event.level, Level.rank]
  exact ((told_nothing.note hheader).note hdirectory).note hentries

/-- Behind a sound frame, a parse is the walk and its summary. -/
theorem parseNoting_eq {signature : Signature} {offset : UInt32} {directory : Directory}
    (hheader : readHeader source base = .ok (signature, offset))
    (hdirectory : readDirectory source base offset = .ok directory) :
    p.parseNoting source base #[] =
      match p.collectNoting source base ⟨#[], #[]⟩ 0 directory.entries
        (opening signature base offset directory) with
      | .ok found log =>
        let info : DebugInfo :=
          ⟨signature, base, directory.header, found.subsections.toList, found.issues.toList⟩
        .ok info (log ++ [summary info])
      | .error e log => .error e log := by
  simp only [parseNoting, hheader, hdirectory, bind, EStateM.bind, MonadExcept.ofExcept, pure,
    EStateM.pure, note]
  unfold opening
  generalize p.collectNoting source base ⟨#[], #[]⟩ 0 directory.entries _ = walked
  cases walked <;> rfl

/-- A parse that reports its events: what it comes to, and what its log tells of that. -/
theorem parseNoting_spec (p : Parser) (source : ByteArray) (base : Nat) :
    match p.parseNoting source base #[] with
    | .ok info log => p.parse source base = .ok info ∧ (p.strict → info.issues = []) ∧
        atLeast .info log.toList = info.issues.map .dropped ++ [summary info]
    | .error e log => p.parse source base = .error e ∧ atLeast .info log.toList = [] := by
  cases hheader : readHeader source base with
  | error e =>
    simp only [parseNoting, parse, readFrame, hheader, bind, EStateM.bind, MonadExcept.ofExcept]
    exact ⟨rfl, rfl⟩
  | ok header =>
    obtain ⟨signature, offset⟩ := header
    cases hdirectory : readDirectory source base offset with
    | error e =>
      simp only [parseNoting, parse, readFrame, hheader, hdirectory, bind, Except.bind,
        EStateM.bind, MonadExcept.ofExcept, pure, EStateM.pure, note]
      exact ⟨rfl, rfl⟩
    | ok directory =>
      have hwalk := (p.told_opening signature base offset directory).collect source base 0
        directory.entries
      rw [parseNoting_eq hheader hdirectory]
      simp only [parse, readFrame, hheader, hdirectory, bind, Except.bind, pure, Except.pure]
      cases hresult : p.collectNoting source base ⟨#[], #[]⟩ 0 directory.entries
          (opening signature base offset directory) with
      | error e log =>
        rw [hresult] at hwalk
        rw [hwalk.1]
        exact ⟨rfl, hwalk.2⟩
      | ok found log =>
        rw [hresult] at hwalk
        obtain ⟨hcollect, htold⟩ := hwalk
        rw [hcollect]
        refine ⟨rfl, ?_, ?_⟩
        · intro hp
          simp [htold.strict hp]
        · rw [Array.toList_appendList, atLeast_append, htold.dropped]
          rfl

/-- What a parse reports of at least the information level. -/
theorem atLeast_trail (p : Parser) (source : ByteArray) (base : Nat) :
    atLeast .info (p.trail source base) =
      match p.parse source base with
      | .ok info => info.issues.map .dropped ++ [summary info]
      | .error _ => [] := by
  have hspec := p.parseNoting_spec source base
  unfold trail
  cases hresult : p.parseNoting source base #[] with
  | ok info log =>
    rw [hresult] at hspec
    rw [hspec.1]
    exact hspec.2.2
  | error e log =>
    rw [hresult] at hspec
    rw [hspec.1]
    exact hspec.2

theorem issues_of_strict {info : DebugInfo} (hp : p.strict) (h : p.parse source base = .ok info) :
    info.issues = [] := by
  have hspec := p.parseNoting_spec source base
  split at hspec
  · cases h.symm.trans hspec.1
    exact hspec.2.1 hp
  · cases h.symm.trans hspec.1

/-- Every directory entry is counted as a subsection or as an issue. -/
theorem length_subsections_add_length_issues {info : DebugInfo}
    (h : p.parse source base = .ok info) :
    info.subsections.length + info.issues.length = info.header.entryCount.toNat := by
  obtain ⟨signature, rfl⟩ := eq_ofOutcomes_of_parse rfl (parse_lenient_of_ok h)
  rw [DebugInfo.length_ofOutcomes, storedOutcomes, List.length_map, List.length_range]
  rfl

end Parser

/-! ## Images -/

theorem Image.atLeast_trail (source : ByteArray) : atLeast .info (Image.trail source) = [] := by
  unfold Image.trail
  split
  · rfl
  · split
    · rfl
    · split <;> rfl

/-- What loading an image reports of at least the information level. -/
theorem Executable.atLeast_imageTrail (p : Parser) (source : ByteArray) :
    atLeast .info (imageTrail p source) =
      match ofImage p source with
      | .ok exe => exe.info.issues.map .dropped ++
          [Parser.summary exe.info, .loaded exe.info.signature exe.imageBase exe.baseOfCode]
      | .error _ => [] := by
  rw [imageTrail, atLeast_append, Image.atLeast_trail, List.nil_append, ofImage]
  cases Image.locate source with
  | error e => rfl
  | ok located =>
    cases located with
    | none => rfl
    | some blob =>
      simp only [atLeast_append, p.atLeast_trail]
      cases p.parse (visibleBytes source blob) blob.offset with
      | error e => rfl
      | ok info => simp [atLeast, Event.level, Level.rank]

end CodeView
