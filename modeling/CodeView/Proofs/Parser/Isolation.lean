import CodeView.Proofs.Relocation.Blob

/-!
# Broken subsections

Two sources may hold one frame and differ in what the subsections hold. What a lenient parser makes
of an entry is decided by the bytes that the entry declares, so it is the same in both wherever
those bytes are: a broken subsection loses itself and no other.
-/

namespace CodeView

/-- Two results tell the same of entry `i` of the directory. -/
structure DebugInfo.SameAt (info info' : DebugInfo) (i : Nat) : Prop where
  subsection : ∀ s : Subsection, s.index = i → (s ∈ info'.subsections ↔ s ∈ info.subsections)
  issue : ∀ issue : Issue, issue.index = i → (issue ∈ info'.issues ↔ issue ∈ info.issues)

theorem DebugInfo.sameAt_ofOutcomes {signature : Signature} {base : Nat} {header : DirectoryHeader}
    {outcomes outcomes' : List (DirectoryEntry × Except FormatError Record)} {i : Nat}
    (h : outcomes'[i]? = outcomes[i]?) :
    (ofOutcomes signature base header outcomes).SameAt
      (ofOutcomes signature base header outcomes') i := by
  constructor
  · rintro s rfl
    rw [mem_subsections_ofOutcomes, mem_subsections_ofOutcomes, h]
  · rintro issue rfl
    rw [mem_issues_ofOutcomes, mem_issues_ofOutcomes, h]

namespace Parser

variable {p : Parser} {source target : ByteArray} {base : Nat}

/-- Both sources hold the content of an entry, or neither source has room for it. -/
def SameContent (source target : ByteArray) (base : Nat) (entry : DirectoryEntry) : Prop :=
  entry.limit base ≤ source.size →
    SameBytes source target (base + entry.offset.toNat) (base + entry.offset.toNat)
      entry.size.toNat

instance (entry : DirectoryEntry) : Decidable (SameContent source target base entry) :=
  inferInstanceAs (Decidable (_ → _))

theorem outcome_of_sameContent {entry : DirectoryEntry} (hsize : target.size = source.size)
    (same : SameContent source target base entry) :
    p.outcome target base entry = p.outcome source base entry := by
  have moved : p.outcome target (base + 0) entry =
      (p.outcome source base entry).mapError (·.shift 0) :=
    outcome_eq_of_sameBytes hsize same (.inl rfl)
  rwa [FormatError.mapError_shift_zero] at moved

theorem getElem?_storedOutcomes_eq {i : Nat} (h : SameFrame source target base 0)
    (hi : i < Directory.countAt source (directoryPlace source base))
    (same : SameContent source target base (entryAt source base i)) :
    (p.storedOutcomes target base)[i]? = (p.storedOutcomes source base)[i]? := by
  have hcount : Directory.countAt target (directoryPlace target base) =
      Directory.countAt source (directoryPlace source base) := h.countAt_eq
  have hentry : entryAt target base i = entryAt source base i := h.entryAt_eq hi
  simp only [storedOutcomes, hcount, List.getElem?_map, List.getElem?_range hi, Option.map_some,
    hentry, outcome_of_sameContent h.size same]

/-- **A broken subsection loses only itself.** Where two sources of one length hold the same
header and the same directory, both can be parsed or neither can, with one signature, one header
and the same entries. Of an entry whose content they both hold the results tell the same. -/
theorem parse_isolated (hp : p.strict = false) (hsize : target.size = source.size)
    (hheader : SameBytes source target base base 8)
    (hdirectory : SameBytes source target (directoryPlace source base)
      (directoryPlace source base) (Directory.lengthAt source (directoryPlace source base))) :
    ((∃ info, p.parse source base = .ok info) ↔ ∃ info', p.parse target base = .ok info') ∧
      ∀ info info', p.parse source base = .ok info → p.parse target base = .ok info' →
        info'.signature = info.signature ∧ info'.header = info.header ∧
          ∀ i < info.header.entryCount.toNat,
            entryAt target base i = entryAt source base i ∧
              (SameContent source target base (entryAt source base i) →
                info.SameAt info' i) := by
  -- one place in two sources is a move by nothing
  have h : SameFrame source target base 0 := ⟨hsize, hheader, hdirectory⟩
  have hchecks : checks target base = checks source base := by
    have moved := h.checks_eq
    rwa [Check.shift_zero, List.map_id] at moved
  have hsignature : signatureOf target base = signatureOf source base := h.signatureOf_eq
  have hstored : DirectoryHeader.stored target (directoryPlace target base) =
      DirectoryHeader.stored source (directoryPlace source base) := h.header_eq
  have run : p.parse source base = _ := parse_of_lenient_eq_run hp
  have run' : p.parse target base = _ := parse_of_lenient_eq_run hp
  rw [hchecks, hsignature, hstored] at run'
  rw [run, run']
  constructor
  · simp only [Check.run_eq_ok, exists_and_left, exists_eq, and_true]
  · intro info info' hinfo hinfo'
    obtain ⟨-, rfl⟩ := Check.run_eq_ok.1 hinfo
    obtain ⟨-, rfl⟩ := Check.run_eq_ok.1 hinfo'
    simp only [DebugInfo.signature_ofOutcomes, DebugInfo.header_ofOutcomes, true_and]
    intro i hi
    refine ⟨h.entryAt_eq hi, fun same => ?_⟩
    exact DebugInfo.sameAt_ofOutcomes (getElem?_storedOutcomes_eq h hi same)

/-- Two library lists. The second name of the first one is as long as said here. -/
def twoLists (length : UInt8) : ByteArray :=
  ⟨#[0x4e, 0x42, 0x30, 0x39, 8, 0, 0, 0,
    16, 0, 12, 0, 2, 0, 0, 0, 0, 0, 0, 0, 0, 0, 0, 0,
    0x28, 1, 255, 255, 48, 0, 0, 0, 3, 0, 0, 0,
    0x28, 1, 255, 255, 51, 0, 0, 0, 2, 0, 0, 0,
    0, length, 97, 1, 98]⟩

/-- A name that reaches into the next list takes nothing from it. -/
theorem parse_isolated_twoLists :
    default.strict = false ∧ (twoLists 2).size = (twoLists 1).size ∧
      SameBytes (twoLists 1) (twoLists 2) 0 0 8 ∧ SameBytes (twoLists 1) (twoLists 2) 8 8 40 ∧
      ∃ info, default.parse (twoLists 2) 0 = .ok info ∧
        info.issues = [⟨0, .libraries, 0xffff, .outOfBounds 50 2 51⟩] ∧
        ⟨1, ⟨.libraries, 0xffff, 51, 2⟩, .libraries ["b"]⟩ ∈ info.subsections := by
  have hp : default.strict = false := rfl
  have hsize : (twoLists 2).size = (twoLists 1).size := rfl
  have hheader : SameBytes (twoLists 1) (twoLists 2) 0 0 8 := by decide
  have hdirectory : SameBytes (twoLists 1) (twoLists 2) 8 8 40 := by decide
  have whole : default.parse (twoLists 1) 0 =
      .ok ⟨.nb09, 0, ⟨16, 12, 2, 0, 0⟩,
        [⟨0, ⟨.libraries, 0xffff, 48, 3⟩, .libraries ["", "a"]⟩,
          ⟨1, ⟨.libraries, 0xffff, 51, 2⟩, .libraries ["b"]⟩], []⟩ := rfl
  have isolated := parse_isolated hp hsize hheader hdirectory
  obtain ⟨info, broken⟩ := isolated.1.1 ⟨_, whole⟩
  have same := ((isolated.2 _ info whole broken).2.2 1 (by decide)).2 (by decide)
  refine ⟨hp, hsize, hheader, hdirectory, info, broken, ?_, ?_⟩
  · cases broken
    rfl
  · exact (same.subsection _ rfl).2 (by decide)

end Parser

end CodeView
