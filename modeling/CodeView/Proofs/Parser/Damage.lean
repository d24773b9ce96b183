import CodeView.Proofs.Parser.Accounting

/-!
# Structural damage

A lenient parse fails exactly where the frame of the blob is unsound, and reports the first broken
check of it. What the subsections hold has no say in this: `Parser.Sound` and `Parser.checks` look
at the header and the directory only.
-/

namespace CodeView

/-- A result tells the frame of the blob at a position as it is stored: the signature, the header
of the directory, and what each entry says of itself. -/
structure DebugInfo.TellsFrame (info : DebugInfo) (source : ByteArray) (position : Nat) :
    Prop where
  base : info.base = position
  signature : info.signature.bytes = Parser.signatureAt source position
  header : info.header = DirectoryHeader.stored source (Parser.directoryPlace source position)
  entries : ∀ i < info.header.entryCount.toNat,
    (∃ s ∈ info.subsections, s.index = i ∧ s.entry = Parser.entryAt source position i) ∨
      ∃ issue ∈ info.issues, issue.index = i ∧
        issue.kind = (Parser.entryAt source position i).kind ∧
        issue.moduleIndex = (Parser.entryAt source position i).moduleIndex

namespace Parser

variable {p : Parser} {source : ByteArray} {base : Nat}

theorem tellsFrame_ofOutcomes (h : Sound source base) :
    (DebugInfo.ofOutcomes (signatureOf source base) base
      (DirectoryHeader.stored source (directoryPlace source base))
      (p.storedOutcomes source base)).TellsFrame source base := by
  constructor
  case base => rfl
  case signature => exact h.bytes_signatureOf
  case header => rfl
  case entries =>
    intro i hi
    have hlength : i < (p.storedOutcomes source base).length := by
      rw [storedOutcomes, List.length_map, List.length_range]
      exact hi
    obtain ⟨s, hs, rfl⟩ | ⟨issue, hissue, rfl⟩ := DebugInfo.exists_index_iff.2 hlength
    · have hget := DebugInfo.mem_subsections_ofOutcomes.1 hs
      exact .inl ⟨s, hs, rfl, (getElem?_storedOutcomes hget).1⟩
    · obtain ⟨entry, hget, hkind, hmodule⟩ := DebugInfo.mem_issues_ofOutcomes.1 hissue
      obtain rfl := (getElem?_storedOutcomes hget).1
      exact .inr ⟨issue, hissue, rfl, hkind, hmodule⟩

/-- **Only structural damage makes a lenient parse fail.** There is a result exactly if the frame
is sound, and it tells the frame as stored. Otherwise the first broken check is the error. -/
theorem parse_decided_by_frame (hp : p.strict = false) :
    ((∃ info, p.parse source base = .ok info) ↔ Sound source base) ∧
      (∀ info, p.parse source base = .ok info → info.TellsFrame source base) ∧
      ∀ e, p.parse source base = .error e ↔ Check.fault? (checks source base) = some e := by
  simp only [parse_of_lenient_eq_run hp, Check.run_eq_ok, Check.run_eq_error, holds_checks_iff,
    exists_and_left, exists_eq, and_true, implies_true, true_and]
  rintro info ⟨hsound, rfl⟩
  exact tellsFrame_ofOutcomes hsound

/-- The signature is judged although no offset of a directory can follow it. -/
theorem parse_decided_by_frame_signatureOnly :
    default.strict = false ∧ Sound mixedBlob 0 ∧ (∃ info, default.parse mixedBlob 0 = .ok info) ∧
      default.parse ⟨#[0x4e, 0x42, 0x30, 0x38]⟩ 0 =
        .error (.badSignature #v[0x4e, 0x42, 0x30, 0x38] 0) := by
  have hsound : Sound mixedBlob 0 := holds_checks_iff.1 (by decide)
  have hp : default.strict = false := rfl
  refine ⟨hp, hsound, (parse_decided_by_frame hp).1.2 hsound, ?_⟩
  exact ((parse_decided_by_frame hp).2.2 _).2 (by decide)

end Parser

end CodeView
