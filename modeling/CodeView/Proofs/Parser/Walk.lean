import CodeView.Parser

/-!
# The walk over the directory

The parser walks over the directory entries one by one and keeps two lists. What the walk comes
to depends on the outcome of each entry by itself: a lenient walk keeps all of them, sorted into
subsections and issues, and a strict walk keeps the same or stops at the first failure.
-/

namespace CodeView.Parser

variable {p : Parser} {source : ByteArray} {base : Nat}

theorem outcomes_cons (entry : DirectoryEntry) (rest : List DirectoryEntry) :
    p.outcomes source base (entry :: rest) =
      (entry, p.outcome source base entry) :: p.outcomes source base rest := rfl

/-! ## Lenient walks -/

/-- What a lenient step adds. -/
theorem settle_of_lenient (hp : p.strict = false) (found : Findings) (index : Nat)
    (entry : DirectoryEntry) (outcome : Except FormatError Record) :
    p.settle found index entry outcome =
      .ok ⟨found.subsections ++ (Subsection.ofOutcome? ((entry, outcome), index)).toArray,
        found.issues ++ (Issue.ofOutcome? ((entry, outcome), index)).toArray⟩ := by
  cases outcome with
  | ok record => simp [settle, Subsection.ofOutcome?, Issue.ofOutcome?]
  | error e => simp [settle, Subsection.ofOutcome?, Issue.ofOutcome?, hp]

/-- What a lenient walk adds. -/
theorem collect_of_lenient (hp : p.strict = false) (entries : List DirectoryEntry) (index : Nat)
    (found : Findings) :
    p.collect source base found index entries =
      .ok ⟨found.subsections ++
          (((p.outcomes source base entries).zipIdx index).filterMap Subsection.ofOutcome?).toArray,
        found.issues ++
          (((p.outcomes source base entries).zipIdx index).filterMap
            Issue.ofOutcome?).toArray⟩ := by
  induction entries generalizing index found with
  | nil => simp [collect, outcomes]
  | cons entry rest ih =>
    -- the step pushes what the head of the sorted lists is
    rw [collect, settle_of_lenient hp]
    show p.collect source base _ (index + 1) rest = _
    rw [ih, outcomes_cons, List.zipIdx_cons, List.filterMap_cons, List.filterMap_cons]
    cases p.outcome source base entry with
    | ok record => simp [Subsection.ofOutcome?, Issue.ofOutcome?]
    | error e => simp [Subsection.ofOutcome?, Issue.ofOutcome?]

/-- A lenient parse sorts the outcomes of all entries. -/
theorem parse_of_lenient (hp : p.strict = false) :
    p.parse source base = (readFrame source base).map fun (signature, directory) =>
      DebugInfo.ofOutcomes signature base directory.header
        (p.outcomes source base directory.entries) := by
  unfold parse
  cases readFrame source base with
  | error e => rfl
  | ok frame =>
    obtain ⟨signature, directory⟩ := frame
    simp [collect_of_lenient hp, bind, Except.bind, pure, Except.pure, Except.map,
      DebugInfo.ofOutcomes]

theorem parse_eq_ok_iff (hp : p.strict = false) {info : DebugInfo} :
    p.parse source base = .ok info ↔
      ∃ signature directory, readFrame source base = .ok (signature, directory) ∧
        info = DebugInfo.ofOutcomes signature base directory.header
          (p.outcomes source base directory.entries) := by
  rw [parse_of_lenient hp]
  cases readFrame source base with
  | error e => simp [Except.map]
  | ok frame =>
    obtain ⟨signature, directory⟩ := frame
    constructor
    · intro h
      cases h
      exact ⟨signature, directory, rfl, rfl⟩
    · rintro ⟨_, _, hframe, rfl⟩
      cases hframe
      rfl

/-- No outcome of an entry is the error of a lenient parse. -/
theorem parse_eq_error_iff (hp : p.strict = false) {e : FormatError} :
    p.parse source base = .error e ↔ readFrame source base = .error e := by
  rw [parse_of_lenient hp]
  cases readFrame source base <;> simp [Except.map]

/-! ## Strict walks -/

theorem firstFailure?_cons_ok (entry : DirectoryEntry) (record : Record)
    (rest : List (DirectoryEntry × Except FormatError Record)) :
    firstFailure? ((entry, .ok record) :: rest) = firstFailure? rest := rfl

theorem firstFailure?_cons_error (entry : DirectoryEntry) (e : FormatError)
    (rest : List (DirectoryEntry × Except FormatError Record)) :
    firstFailure? ((entry, .error e) :: rest) = some e := rfl

/-- The first failure is that of the first issue. -/
theorem firstFailure?_eq_head? (outcomes : List (DirectoryEntry × Except FormatError Record))
    (index : Nat) :
    firstFailure? outcomes =
      (((outcomes.zipIdx index).filterMap Issue.ofOutcome?).head?).map (·.error) := by
  induction outcomes generalizing index with
  | nil => rfl
  | cons outcome rest ih =>
    match outcome with
    | (entry, .ok record) => rw [firstFailure?_cons_ok, ih (index + 1)]; rfl
    | (entry, .error e) => rfl

/-- A strict walk stops at the first failure, and without one it comes to what a lenient walk
comes to. -/
theorem collect_of_strict (hp : p.strict = true) (entries : List DirectoryEntry) (index : Nat)
    (found : Findings) :
    p.collect source base found index entries =
      match firstFailure? (p.outcomes source base entries) with
      | some e => .error e
      | none => .ok ⟨found.subsections ++
          (((p.outcomes source base entries).zipIdx index).filterMap Subsection.ofOutcome?).toArray,
          found.issues⟩ := by
  induction entries generalizing index found with
  | nil => simp [collect, outcomes, firstFailure?]
  | cons entry rest ih =>
    rw [collect, outcomes_cons]
    cases p.outcome source base entry with
    | ok record =>
      show p.collect source base _ (index + 1) rest = _
      rw [ih, firstFailure?_cons_ok]
      cases firstFailure? (p.outcomes source base rest) with
      | some e => rfl
      | none => simp [Subsection.ofOutcome?]
    | error e =>
      rw [firstFailure?_cons_error, settle, hp]
      rfl

/-- A strict parse gives the first failure, or what a lenient parse gives. -/
theorem parse_of_strict (hp : p.strict = true) :
    p.parse source base = (readFrame source base).bind fun (signature, directory) =>
      match firstFailure? (p.outcomes source base directory.entries) with
      | some e => .error e
      | none => .ok (DebugInfo.ofOutcomes signature base directory.header
          (p.outcomes source base directory.entries)) := by
  unfold parse
  cases readFrame source base with
  | error e => rfl
  | ok frame =>
    obtain ⟨signature, directory⟩ := frame
    simp only [bind, Except.bind, collect_of_strict hp]
    cases h : firstFailure? (p.outcomes source base directory.entries) with
    | some e => rfl
    | none =>
      -- without a failure there is no issue, which the strict walk does not even look for
      rw [firstFailure?_eq_head? _ 0, Option.map_eq_none_iff, List.head?_eq_none_iff] at h
      simp [pure, Except.pure, DebugInfo.ofOutcomes, h]

end CodeView.Parser
