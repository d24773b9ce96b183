import CodeView.Proofs.DebugInfo
import CodeView.Proofs.Parser.Walk

/-!
# Strict and lenient parsing

A strict parse can be told from the lenient parse of the same blob: it fails where the lenient
parse fails, it fails with the first issue where the lenient parse has issues, and otherwise the
two are equal. `Parser.parse_strict` is the whole statement.
-/

namespace CodeView

/-- The result itself, or the error of its first issue. -/
def DebugInfo.orFirstIssue (info : DebugInfo) : Except FormatError DebugInfo :=
  match info.issues with
  | [] => .ok info
  | issue :: _ => .error issue.error

theorem DebugInfo.exists_issue_of_orFirstIssue {info : DebugInfo} {e : FormatError}
    (h : info.orFirstIssue = .error e) : ∃ issue ∈ info.issues, issue.error = e := by
  unfold orFirstIssue at h
  split at h
  case h_1 => cases h
  case h_2 issue rest hissues =>
    cases h
    refine ⟨issue, ?_, rfl⟩
    rw [hissues]
    exact List.mem_cons_self

namespace Parser

variable {p : Parser} {source : ByteArray} {base : Nat}

/-- The issues tell whether there is a failure, and which one is the first. -/
theorem orFirstIssue_ofOutcomes {signature : Signature} {header : DirectoryHeader}
    (outcomes : List (DirectoryEntry × Except FormatError Record)) :
    (DebugInfo.ofOutcomes signature base header outcomes).orFirstIssue =
      match firstFailure? outcomes with
      | some e => .error e
      | none => .ok (DebugInfo.ofOutcomes signature base header outcomes) := by
  have first : firstFailure? outcomes =
      (DebugInfo.ofOutcomes signature base header outcomes).issues.head?.map (·.error) :=
    firstFailure?_eq_head? _ 0
  rw [first, DebugInfo.orFirstIssue]
  cases (DebugInfo.ofOutcomes signature base header outcomes).issues with
  | nil => rfl
  | cons issue rest => rfl

theorem parse_set_strict (p : Parser) :
    (p.set (.strict true)).parse source base =
      ((p.set (.strict false)).parse source base).bind DebugInfo.orFirstIssue := by
  rw [parse_of_lenient (p := p.set (.strict false)) rfl,
    parse_of_strict (p := p.set (.strict true)) rfl]
  cases readFrame source base with
  | error e => rfl
  | ok frame => exact (orFirstIssue_ofOutcomes _).symm

/-- A lenient parse reports its issues in the order of the directory. -/
theorem pairwise_issues_of_parse (hp : p.strict = false) {info : DebugInfo}
    (h : p.parse source base = .ok info) :
    info.issues.Pairwise fun a b => a.index < b.index := by
  obtain ⟨signature, directory, -, rfl⟩ := (parse_eq_ok_iff hp).1 h
  exact DebugInfo.pairwise_issues

/-- **The two modes agree.** A structural error is the same in both. A lenient result without
issues is the strict result, and one with issues stands against the error of the first of them,
which has the smallest place in the directory. -/
theorem parse_strict (p : Parser) (source : ByteArray) (base : Nat) :
    let lenient := (p.set (.strict false)).parse source base
    let strict := (p.set (.strict true)).parse source base
    (∀ e, lenient = .error e → strict = .error e) ∧
      (∀ info, lenient = .ok info → info.issues = [] → strict = .ok info) ∧
      ∀ info issue rest, lenient = .ok info → info.issues = issue :: rest →
        strict = .error issue.error ∧ ∀ other ∈ rest, issue.index < other.index := by
  intro lenient strict
  have agree : strict = lenient.bind DebugInfo.orFirstIssue := parse_set_strict p
  refine ⟨?_, ?_, ?_⟩
  · intro e h
    rw [agree, h]
    rfl
  · intro info h hissues
    rw [agree, h]
    show info.orFirstIssue = _
    rw [DebugInfo.orFirstIssue, hissues]
  · intro info issue rest h hissues
    have sorted := pairwise_issues_of_parse rfl h
    rw [hissues] at sorted
    refine ⟨?_, (List.pairwise_cons.1 sorted).1⟩
    rw [agree, h]
    show info.orFirstIssue = _
    rw [DebugInfo.orFirstIssue, hissues]

end Parser

end CodeView
