import CodeView.DebugInfo

/-!
# Sorted outcomes

Every outcome of a list leaves one subsection or one issue, which keeps the place of the outcome
in the list. Both lists come out in that order.
-/

namespace CodeView

theorem Record.sourceModule?_eq_some_iff {record : Record} {m : SourceModule} :
    record.sourceModule? = some m ↔ record = .sourceModule m := by
  cases record with
  | sourceModule m' => simp [sourceModule?]
  | _ => simp [sourceModule?]

namespace DebugInfo

theorem mem_sourceModules {info : DebugInfo} {m : SourceModule} :
    m ∈ info.sourceModules ↔ ∃ s ∈ info.subsections, s.record = .sourceModule m := by
  simp only [sourceModules, records, List.mem_filterMap, List.mem_map,
    Record.sourceModule?_eq_some_iff]
  constructor
  · rintro ⟨_, ⟨s, hs, rfl⟩, hrecord⟩
    exact ⟨s, hs, hrecord⟩
  · rintro ⟨s, hs, hrecord⟩
    exact ⟨_, ⟨s, hs, rfl⟩, hrecord⟩

variable {signature : Signature} {base : Nat} {header : DirectoryHeader}
  {outcomes : List (DirectoryEntry × Except FormatError Record)}

@[simp] theorem signature_ofOutcomes :
    (ofOutcomes signature base header outcomes).signature = signature := rfl

@[simp] theorem base_ofOutcomes :
    (ofOutcomes signature base header outcomes).base = base := rfl

@[simp] theorem header_ofOutcomes :
    (ofOutcomes signature base header outcomes).header = header := rfl

/-! ## Where they come from -/

theorem mem_subsections_ofOutcomes {s : Subsection} :
    s ∈ (ofOutcomes signature base header outcomes).subsections ↔
      outcomes[s.index]? = some (s.entry, .ok s.record) := by
  simp only [ofOutcomes, List.mem_filterMap, Prod.exists, List.mk_mem_zipIdx_iff_getElem?]
  constructor
  · intro h
    obtain ⟨entry, outcome, index, hmem, hs⟩ := h
    cases outcome with
    | ok record =>
      cases hs
      exact hmem
    | error e => cases hs
  · intro h
    exact ⟨s.entry, .ok s.record, s.index, h, rfl⟩

theorem mem_issues_ofOutcomes {issue : Issue} :
    issue ∈ (ofOutcomes signature base header outcomes).issues ↔
      ∃ entry, outcomes[issue.index]? = some (entry, .error issue.error) ∧
        issue.kind = entry.kind ∧ issue.moduleIndex = entry.moduleIndex := by
  simp only [ofOutcomes, List.mem_filterMap, Prod.exists, List.mk_mem_zipIdx_iff_getElem?]
  constructor
  · intro h
    obtain ⟨entry, outcome, index, hmem, hissue⟩ := h
    cases outcome with
    | ok record => cases hissue
    | error e =>
      cases hissue
      exact ⟨entry, hmem, rfl, rfl⟩
  · intro h
    obtain ⟨entry, hmem, hkind, hmodule⟩ := h
    refine ⟨entry, .error issue.error, issue.index, hmem, ?_⟩
    rw [Issue.ofOutcome?, ← hkind, ← hmodule]

/-- Every place of the list is that of a subsection or that of an issue. -/
theorem exists_index_iff {i : Nat} :
    ((∃ s ∈ (ofOutcomes signature base header outcomes).subsections, s.index = i) ∨
        ∃ issue ∈ (ofOutcomes signature base header outcomes).issues, issue.index = i) ↔
      i < outcomes.length := by
  simp only [mem_subsections_ofOutcomes, mem_issues_ofOutcomes]
  constructor
  · intro h
    obtain ⟨s, h, rfl⟩ | ⟨issue, ⟨entry, h, -⟩, rfl⟩ := h
    · exact (List.getElem?_eq_some_iff.1 h).1
    · exact (List.getElem?_eq_some_iff.1 h).1
  · intro hi
    have hget : outcomes[i]? = some outcomes[i] := List.getElem?_eq_getElem hi
    cases h : outcomes[i] with
    | mk entry outcome =>
      rw [h] at hget
      cases outcome with
      | ok record => exact .inl ⟨⟨i, entry, record⟩, hget, rfl⟩
      | error e =>
        exact .inr ⟨⟨i, entry.kind, entry.moduleIndex, e⟩, ⟨entry, hget, rfl, rfl⟩, rfl⟩

/-- No place is that of both. -/
theorem index_ne_index {s : Subsection} {issue : Issue}
    (hs : s ∈ (ofOutcomes signature base header outcomes).subsections)
    (hissue : issue ∈ (ofOutcomes signature base header outcomes).issues) :
    s.index ≠ issue.index := by
  intro heq
  obtain ⟨entry, hget, -⟩ := mem_issues_ofOutcomes.1 hissue
  rw [← heq, mem_subsections_ofOutcomes.1 hs] at hget
  cases hget

/-- Every outcome is counted once. -/
theorem length_ofOutcomes :
    (ofOutcomes signature base header outcomes).subsections.length +
      (ofOutcomes signature base header outcomes).issues.length = outcomes.length := by
  have hcount (start : Nat) :
      ((outcomes.zipIdx start).filterMap Subsection.ofOutcome?).length +
        ((outcomes.zipIdx start).filterMap Issue.ofOutcome?).length = outcomes.length := by
    induction outcomes generalizing start with
    | nil => rfl
    | cons outcome rest ih =>
      obtain ⟨entry, result⟩ := outcome
      have hrest := ih (start + 1)
      cases result with
      | ok record =>
        simp only [List.zipIdx_cons, List.filterMap_cons, Subsection.ofOutcome?,
          Issue.ofOutcome?, List.length_cons]
        omega
      | error e =>
        simp only [List.zipIdx_cons, List.filterMap_cons, Subsection.ofOutcome?,
          Issue.ofOutcome?, List.length_cons]
        omega
  exact hcount 0

/-! ## Order -/

theorem pairwise_zipIdx {α : Type} (items : List α) (start : Nat) :
    (items.zipIdx start).Pairwise fun a b => a.2 < b.2 := by
  rw [← List.pairwise_map, List.zipIdx_map_snd]
  exact List.pairwise_lt_range'

theorem pairwise_subsections :
    (ofOutcomes signature base header outcomes).subsections.Pairwise
      fun a b => a.index < b.index := by
  refine (pairwise_zipIdx outcomes 0).filterMap Subsection.ofOutcome? ?_
  intro ⟨⟨entry, outcome⟩, i⟩ ⟨⟨entry', outcome'⟩, j⟩ hij s hs s' hs'
  cases outcome <;> cases outcome' <;> cases hs <;> cases hs'
  exact hij

theorem pairwise_issues :
    (ofOutcomes signature base header outcomes).issues.Pairwise
      fun a b => a.index < b.index := by
  refine (pairwise_zipIdx outcomes 0).filterMap Issue.ofOutcome? ?_
  intro ⟨⟨entry, outcome⟩, i⟩ ⟨⟨entry', outcome'⟩, j⟩ hij issue hissue issue' hissue'
  cases outcome <;> cases outcome' <;> cases hissue <;> cases hissue'
  exact hij

/-- The records are those of the outcomes that have one, in the same order. -/
theorem records_ofOutcomes :
    (ofOutcomes signature base header outcomes).records =
      outcomes.filterMap fun outcome => outcome.2.toOption := by
  suffices h : ∀ start, ((outcomes.zipIdx start).filterMap Subsection.ofOutcome?).map (·.record) =
      outcomes.filterMap fun outcome => outcome.2.toOption from h 0
  induction outcomes with
  | nil => exact fun _ => rfl
  | cons outcome rest ih =>
    intro start
    obtain ⟨entry, outcome⟩ := outcome
    rw [List.zipIdx_cons, List.filterMap_cons, List.filterMap_cons]
    cases outcome with
    | ok record => simp only [Subsection.ofOutcome?, Except.toOption, List.map_cons, ih]
    | error e => simp only [Subsection.ofOutcome?, Except.toOption, ih]

end DebugInfo

end CodeView
