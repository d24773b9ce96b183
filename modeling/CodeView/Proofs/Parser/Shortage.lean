import CodeView.Proofs.Defect
import CodeView.Proofs.Parser.Growth

/-!
# Reports that bytes are missing

A report that bytes are missing says how many are needed and how many there are.
`FormatError.Short` asks the first number to be the larger one, and `Parser.short_of_parse` says
where the two numbers are both zero instead: for a blob that begins behind the source, and for an
entry without content that points behind it.
-/

namespace CodeView

/-- A report that bytes are missing needs more of them than it says there are. -/
def FormatError.Short : FormatError → Prop
  | truncated _ needed available => available < needed
  | _ => True

theorem FormatError.short_of_isTruncated {e : FormatError} (h : e.isTruncated = false) :
    e.Short := by
  cases e with
  | truncated => cases h
  | _ => trivial

/-! ## Decoders -/

theorem Defect.isTruncated {source : ByteArray} {start limit : Nat} {e : FormatError}
    (h : Defect source start limit e) : e.isTruncated = false := by
  cases h with
  | outOfBounds => rfl
  | badPadding => rfl
  | lineTable _ fault => cases fault <;> rfl

/-- What lies in a window is never reported missing. -/
theorem Decoder.isTruncated_of_read {decoder : Decoder} {c c' : Cursor} {e : FormatError}
    (hstart : c.Within c.start) (hpos : c.pos = c.start) (h : decoder.read c = .error e c') :
    e.isTruncated = false := by
  obtain hdefect | ⟨base, offset, -, -, rfl⟩ := defect_or_nameless hstart hpos h
  · exact hdefect.isTruncated
  · rfl

/-! ## The frame -/

theorem Directory.short_of_fault? {source : ByteArray} {limit position : Nat} {e : FormatError}
    (h : Check.fault? (checks source limit position) = some e) : e.Short := by
  simp only [checks, Check.fault?_cons_eq_some, decide_eq_false_iff_not, decide_eq_true_eq] at h
  -- behind the first check the header lies in the window, so the entries alone can be too long
  obtain ⟨hhead, rfl⟩ | ⟨hhead, ⟨-, rfl⟩ | ⟨-, ⟨-, rfl⟩ | ⟨-, ⟨hentries, rfl⟩ | ⟨-, h⟩⟩⟩⟩ := h
  · have hwidth : DirectoryHeader.width = 16 := rfl
    show limit - position < DirectoryHeader.width
    omega
  · trivial
  · trivial
  · show limit - (position + DirectoryHeader.width) <
      countAt source position * DirectoryEntry.width
    omega
  · cases h

namespace Parser

variable {p : Parser} {source : ByteArray} {base : Nat}

theorem short_of_headerFault? {e : FormatError}
    (h : Check.fault? (headerChecks source base) = some e) :
    e.Short ∨ source.size < base ∧ e = .truncated "CodeView header" 0 0 := by
  simp only [headerChecks, Check.fault?_cons_eq_some, decide_eq_false_iff_not,
    decide_eq_true_eq] at h
  obtain ⟨hbase, rfl⟩ | ⟨hbase, ⟨hfour, rfl⟩ | ⟨-, ⟨-, rfl⟩ | ⟨-, ⟨height, rfl⟩ | ⟨-, h⟩⟩⟩⟩ := h
  · exact .inr ⟨Nat.lt_of_not_le hbase, rfl⟩
  · left
    show source.size - base < 4
    omega
  · exact .inl trivial
  · left
    show source.size - base < 8
    omega
  · cases h

theorem short_of_readFrame {e : FormatError} (h : readFrame source base = .error e) :
    e.Short ∨ source.size < base ∧ e = .truncated "CodeView header" 0 0 := by
  rw [readFrame_eq, Check.run_eq_error, checks, Check.fault?_append_eq_some] at h
  obtain hheader | ⟨-, hdirectory⟩ := h
  · exact short_of_headerFault? hheader
  · exact .inl (Directory.short_of_fault? hdirectory)

theorem readFrame_of_lt (h : source.size < base) :
    readFrame source base = .error (.truncated "CodeView header" 0 0) := by
  rw [readFrame_eq, Check.run_eq_error, checks, headerChecks, List.cons_append,
    Check.fault?_cons_eq_some]
  exact .inl ⟨decide_eq_false (Nat.not_le.2 h), rfl⟩

end Parser

/-! ## Entries -/

/-- The entry declares no content, and points behind the source. -/
structure DirectoryEntry.EmptyBehind (entry : DirectoryEntry) (source : ByteArray) (base : Nat) :
    Prop where
  empty : entry.size = 0
  behind : source.size < base + entry.offset.toNat

namespace Parser

variable {p : Parser} {source : ByteArray} {base : Nat} {entry : DirectoryEntry}

theorem short_of_outcome {e : FormatError} (h : p.outcome source base entry = .error e) :
    e.Short ∨ entry.EmptyBehind source base ∧ e = .truncated "subsection content" 0 0 := by
  rw [outcome_eq] at h
  cases hfind : p.registry.find? entry.kind with
  | none =>
    rw [hfind] at h
    cases h
  | some decoder =>
    simp only [hfind] at h
    by_cases hfits : entry.limit base ≤ source.size
    · rw [content_of_fits hfits] at h
      obtain ⟨c', hread⟩ := Read.result_eq_error.1 h
      refine .inl (FormatError.short_of_isTruncated (Decoder.isTruncated_of_read ?_ rfl hread))
      exact ⟨Nat.le_refl _, Nat.le_add_right _ _⟩
    · rw [content_of_not_fits hfits] at h
      cases h
      unfold DirectoryEntry.limit at hfits
      by_cases hempty : entry.size = 0
      · have hbehind : source.size < base + entry.offset.toNat := by
          rw [hempty] at hfits
          exact Nat.lt_of_not_le hfits
        right
        rw [hempty, Nat.sub_eq_zero_of_le (Nat.le_of_lt hbehind)]
        exact ⟨⟨hempty, hbehind⟩, rfl⟩
      · left
        show source.size - (base + entry.offset.toNat) < entry.size.toNat
        have hsize : entry.size.toNat ≠ 0 := fun hzero => hempty (UInt32.toNat_inj.1 hzero)
        omega

theorem outcome_of_emptyBehind (h : entry.EmptyBehind source base)
    (hdecoder : (p.registry.find? entry.kind).isSome = true) :
    p.outcome source base entry = .error (.truncated "subsection content" 0 0) := by
  have hnone : source.size - (base + entry.offset.toNat) = 0 :=
    Nat.sub_eq_zero_of_le (Nat.le_of_lt h.behind)
  have hfits : ¬ entry.limit base ≤ source.size := by
    have hbehind := h.behind
    unfold DirectoryEntry.limit
    omega
  obtain ⟨decoder, hfind⟩ := Option.isSome_iff_exists.1 hdecoder
  rw [outcome_eq, hfind, content_of_not_fits hfits, h.empty, hnone]
  rfl

/-! ## The whole blob -/

/-- What the parser's reports of missing bytes say of the blob at `base`: either a shortage, or,
with two zeros, that something begins behind the source. -/
structure TellsShortage (p : Parser) (source : ByteArray) (base : Nat) : Prop where
  error : ∀ e, p.parse source base = .error e →
    e.Short ∨ source.size < base ∧ e = .truncated "CodeView header" 0 0 ∨
      p.strict = true ∧ e = .truncated "subsection content" 0 0 ∧
        ∃ i < Directory.countAt source (directoryPlace source base),
          (entryAt source base i).EmptyBehind source base
  issue : ∀ info, p.parse source base = .ok info → ∀ issue ∈ info.issues,
    issue.error.Short ∨ issue.error = .truncated "subsection content" 0 0 ∧
      (entryAt source base issue.index).EmptyBehind source base
  behind : source.size < base →
    p.parse source base = .error (.truncated "CodeView header" 0 0)
  emptyBehind : ∀ info, p.parse source base = .ok info → ∀ i < info.header.entryCount.toNat,
    (entryAt source base i).EmptyBehind source base →
      (p.registry.find? (entryAt source base i).kind).isSome = true →
        ∃ issue ∈ info.issues, issue.index = i ∧
          issue.error = .truncated "subsection content" 0 0

theorem short_of_mem_issues {info : DebugInfo} {issue : Issue}
    (h : p.parse source base = .ok info) (hissue : issue ∈ info.issues) :
    issue.index < Directory.countAt source (directoryPlace source base) ∧
      (issue.error.Short ∨ issue.error = .truncated "subsection content" 0 0 ∧
        (entryAt source base issue.index).EmptyBehind source base) := by
  obtain ⟨signature, rfl⟩ := eq_ofOutcomes_of_parse rfl (parse_lenient_of_ok h)
  obtain ⟨entry, hget, -⟩ := DebugInfo.mem_issues_ofOutcomes.1 hissue
  refine ⟨?_, (short_of_outcome (getElem?_storedOutcomes hget).2).imp_right And.symm⟩
  have hindex := (List.getElem?_eq_some_iff.1 hget).1
  rwa [storedOutcomes, List.length_map, List.length_range] at hindex

theorem short_of_parse_error {e : FormatError} (h : p.parse source base = .error e) :
    e.Short ∨ source.size < base ∧ e = .truncated "CodeView header" 0 0 ∨
      p.strict = true ∧ e = .truncated "subsection content" 0 0 ∧
        ∃ i < Directory.countAt source (directoryPlace source base),
          (entryAt source base i).EmptyBehind source base := by
  cases hp : p.strict with
  | false => exact (short_of_readFrame ((parse_eq_error_iff hp).1 h)).imp_right .inl
  | true =>
    -- a strict error is one of the frame, or the first issue of the lenient result
    rw [← set_strict p, hp, parse_set_strict] at h
    cases hlenient : (p.set (.strict false)).parse source base with
    | error e' =>
      rw [hlenient] at h
      cases h
      exact (short_of_readFrame ((parse_eq_error_iff rfl).1 hlenient)).imp_right .inl
    | ok info =>
      rw [hlenient] at h
      obtain ⟨issue, hmem, rfl⟩ := DebugInfo.exists_issue_of_orFirstIssue h
      obtain ⟨hindex, hshort | ⟨heq, hempty⟩⟩ := short_of_mem_issues hlenient hmem
      · exact .inl hshort
      · exact .inr (.inr ⟨rfl, heq, issue.index, hindex, hempty⟩)

/-- **Missing bytes are missing.** Every report of missing bytes, as the error of a parse or in an
issue, needs more bytes than there are. It says that none are needed of none exactly if the blob
begins behind the source, or if an entry that a decoder is in charge of declares no content and
points behind the source. -/
theorem short_of_parse (p : Parser) (source : ByteArray) (base : Nat) :
    p.TellsShortage source base where
  error _ h := short_of_parse_error h
  issue _ h _ hissue := (short_of_mem_issues h hissue).2
  behind h := by
    unfold parse
    rw [readFrame_of_lt h]
    rfl
  emptyBehind info h i hi hempty hdecoder := by
    have houtcome := outcome_of_emptyBehind hempty hdecoder
    obtain ⟨signature, rfl⟩ := eq_ofOutcomes_of_parse rfl (parse_lenient_of_ok h)
    refine ⟨⟨i, (entryAt source base i).kind, (entryAt source base i).moduleIndex, _⟩,
      DebugInfo.mem_issues_ofOutcomes.2 ⟨entryAt source base i, ?_, rfl, rfl⟩, rfl, rfl⟩
    rw [← houtcome]
    exact getElem?_storedOutcomes_of_lt hi

/-- Two library lists behind the source, one without content and one of five bytes. -/
def behindBlob : ByteArray :=
  ⟨#[0x4e, 0x42, 0x30, 0x39, 8, 0, 0, 0,
    16, 0, 12, 0, 2, 0, 0, 0, 0, 0, 0, 0, 0, 0, 0, 0,
    0x28, 1, 255, 255, 49, 0, 0, 0, 0, 0, 0, 0,
    0x28, 1, 255, 255, 49, 0, 0, 0, 5, 0, 0, 0]⟩

/-- The list without content asks for nothing, and the other one for five bytes. -/
theorem short_of_parse_behindBlob :
    ∃ info, default.parse behindBlob 0 = .ok info ∧
      info.issues = [⟨0, .libraries, 0xffff, .truncated "subsection content" 0 0⟩,
        ⟨1, .libraries, 0xffff, .truncated "subsection content" 5 0⟩] ∧
      (entryAt behindBlob 0 0).EmptyBehind behindBlob 0 ∧
      FormatError.Short (.truncated "subsection content" 5 0) := by
  have run : default.parse behindBlob 0 = .ok ⟨.nb09, 0, ⟨16, 12, 2, 0, 0⟩, [],
      [⟨0, .libraries, 0xffff, .truncated "subsection content" 0 0⟩,
        ⟨1, .libraries, 0xffff, .truncated "subsection content" 5 0⟩]⟩ := rfl
  have tells := short_of_parse default behindBlob 0
  refine ⟨_, run, rfl, ?_, ?_⟩
  · obtain hshort | ⟨-, hempty⟩ := tells.issue _ run _ List.mem_cons_self
    · cases hshort
    · exact hempty
  · obtain hshort | ⟨heq, -⟩ := tells.issue _ run _ (List.mem_cons_of_mem _ List.mem_cons_self)
    · exact hshort
    · cases heq

/-- A report may need nothing where nothing is left. -/
theorem parse_behind_empty :
    (∃ e, default.parse ⟨#[]⟩ 1 = .error e ∧ ¬ e.Short) ∧
      ∃ info, default.parse behindBlob 0 = .ok info ∧ ∃ issue ∈ info.issues,
        ¬ issue.error.Short :=
  ⟨⟨_, rfl, Nat.lt_irrefl 0⟩, _, rfl, _, List.mem_cons_self, Nat.lt_irrefl 0⟩

end Parser

end CodeView
