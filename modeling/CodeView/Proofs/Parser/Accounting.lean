import CodeView.Executable
import CodeView.Proofs.DebugInfo
import CodeView.Proofs.Parser.Frame
import CodeView.Proofs.Parser.Walk

/-!
# Every entry is accounted for

A lenient parse leaves exactly one trace of each directory entry: a subsection with the record
that decoding the entry by itself gives, or an issue with the error that it gives. All lists of
the result are in the order of the directory. `DebugInfo.Accounts` says this of a result, and
`Parser.accounts_of_parse` says that lenient results are like that.
-/

namespace CodeView

/-! ## One entry -/

/-- The record of an entry: what the decoder in charge makes of the bytes that the entry
declares, or no content where there is no decoder. -/
inductive Registry.Decodes (r : Registry) (source : ByteArray) (base : Nat)
    (entry : DirectoryEntry) : Record → Prop
  | unsupported (none : r.find? entry.kind = none) : Decodes r source base entry
      (.unsupported entry.kind)
  | decoded {decoder : Decoder} {record : Record} {c' : Cursor} {start : Nat}
      (some : r.find? entry.kind = some decoder) (place : start = base + entry.offset.toNat)
      (fits : start + entry.size.toNat ≤ source.size)
      (read : decoder.read ⟨source, start, start + entry.size.toNat, start⟩ = .ok record c') :
      Decodes r source base entry record

/-- What a decoder reads has content. -/
theorem Decoder.ne_unsupported_of_read {decoder : Decoder} {c c' : Cursor} {record : Record}
    (h : decoder.read c = .ok record c') (kind : Kind) : record ≠ .unsupported kind := by
  intro hrecord
  subst hrecord
  cases decoder <;>
  · obtain ⟨_, _, -, hpure⟩ := Read.bind_eq_ok.1 h
    cases hpure

/-- Only the decoder of source modules gives source modules. -/
theorem Decoder.eq_sourceModule_of_read {decoder : Decoder} {c c' : Cursor} {m : SourceModule}
    (h : decoder.read c = .ok (.sourceModule m) c') : decoder = .sourceModule := by
  cases decoder <;>
  · obtain ⟨content, behind, hread, hpure⟩ := Read.bind_eq_ok.1 h
    cases hpure
    try rfl

theorem Decoder.sourceModule_of_read {decoder : Decoder} {c c' : Cursor} {m : SourceModule}
    (h : decoder.read c = .ok (.sourceModule m) c') : SourceModule.read c = .ok m c' := by
  obtain rfl := eq_sourceModule_of_read h
  obtain ⟨content, behind, hread, hpure⟩ := Read.bind_eq_ok.1 h
  cases hpure
  exact hread

namespace Parser

variable {p : Parser} {source : ByteArray} {base : Nat} {entry : DirectoryEntry}

theorem decodes_of_outcome {record : Record} (h : p.outcome source base entry = .ok record) :
    p.registry.Decodes source base entry record := by
  unfold outcome Registry.decode at h
  cases hfind : p.registry.find? entry.kind with
  | none =>
    rw [hfind] at h
    cases h
    exact .unsupported hfind
  | some decoder =>
    simp only [hfind] at h
    cases hcontent : Registry.content source base entry with
    | error e =>
      rw [hcontent] at h
      cases h
    | ok c =>
      simp only [hcontent] at h
      obtain ⟨hfits, rfl⟩ := Cursor.window_eq_ok.1 hcontent
      split at h
      case h_1 read c' hread =>
        cases h
        exact .decoded hfind rfl hfits hread
      case h_2 => cases h

theorem decode_of_outcome {e : FormatError} (h : p.outcome source base entry = .error e) :
    p.registry.decode source base entry = .error e := by
  unfold outcome at h
  cases hdecode : p.registry.decode source base entry with
  | ok record? =>
    rw [hdecode] at h
    cases h
  | error e' =>
    rw [hdecode] at h
    cases h
    rfl

end Parser

/-- A record is without content exactly where no decoder is in charge. -/
theorem Registry.Decodes.eq_unsupported_iff {r : Registry} {source : ByteArray} {base : Nat}
    {entry : DirectoryEntry} {record : Record} (h : r.Decodes source base entry record) :
    record = .unsupported entry.kind ↔ r.find? entry.kind = none := by
  cases h with
  | unsupported hnone => simp [hnone]
  | decoded hsome _ _ hread => simp [hsome, Decoder.ne_unsupported_of_read hread]

/-! ## The whole directory -/

/-- Entry `i` of the directory of the blob at a position. -/
def Parser.entryAt (source : ByteArray) (base i : Nat) : DirectoryEntry :=
  DirectoryEntry.stored source (Directory.entryPlace (directoryPlace source base) i)

/-- A result accounts for every directory entry of the blob at `base`: each has left one
subsection or one issue, which tells what decoding the entry by itself gives, and all lists are
in the order of the directory. -/
structure DebugInfo.Accounts (info : DebugInfo) (p : Parser) (source : ByteArray) (base : Nat) :
    Prop where
  header : info.header = DirectoryHeader.stored source (Parser.directoryPlace source base)
  subsectionsInOrder : info.subsections.Pairwise fun a b => a.index < b.index
  issuesInOrder : info.issues.Pairwise fun a b => a.index < b.index
  apart : ∀ s ∈ info.subsections, ∀ issue ∈ info.issues, s.index ≠ issue.index
  complete : ∀ i, ((∃ s ∈ info.subsections, s.index = i) ∨
    ∃ issue ∈ info.issues, issue.index = i) ↔ i < info.header.entryCount.toNat
  entry : ∀ s ∈ info.subsections, s.entry = Parser.entryAt source base s.index
  record : ∀ s ∈ info.subsections, p.registry.Decodes source base s.entry s.record
  unsupported : ∀ s ∈ info.subsections,
    s.record = .unsupported s.entry.kind ↔ p.registry.find? s.entry.kind = none
  kind : ∀ issue ∈ info.issues, issue.kind = (Parser.entryAt source base issue.index).kind
  moduleIndex : ∀ issue ∈ info.issues,
    issue.moduleIndex = (Parser.entryAt source base issue.index).moduleIndex
  error : ∀ issue ∈ info.issues,
    p.registry.decode source base (Parser.entryAt source base issue.index) = .error issue.error
  sourceModules : info.sourceModules = (List.range info.header.entryCount.toNat).filterMap
    fun i => (p.outcome source base (Parser.entryAt source base i)).toOption.bind
      Record.sourceModule?
  modules : info.modules = (List.range info.header.entryCount.toNat).filterMap
    fun i => (p.outcome source base (Parser.entryAt source base i)).toOption.bind
      Record.moduleInfo?
  files : info.resolver.files = (List.range info.header.entryCount.toNat).flatMap
    fun i => ((p.outcome source base (Parser.entryAt source base i)).toOption.bind
      Record.sourceModule?).elim [] SourceModule.files

/-- Every entry of a kind has left something of the kind. -/
theorem DebugInfo.Accounts.exists_kind_iff {info : DebugInfo} {p : Parser} {source : ByteArray}
    {base : Nat} (h : info.Accounts p source base) {kind : Kind} {i : Nat} :
    ((∃ s ∈ info.subsections, s.index = i ∧ s.entry.kind = kind) ∨
        ∃ issue ∈ info.issues, issue.index = i ∧ issue.kind = kind) ↔
      i < info.header.entryCount.toNat ∧ (Parser.entryAt source base i).kind = kind := by
  constructor
  · rintro (⟨s, hs, rfl, hkind⟩ | ⟨issue, hissue, rfl, hkind⟩)
    · exact ⟨(h.complete _).1 (.inl ⟨s, hs, rfl⟩), h.entry s hs ▸ hkind⟩
    · exact ⟨(h.complete _).1 (.inr ⟨issue, hissue, rfl⟩), (h.kind issue hissue).symm.trans hkind⟩
  · rintro ⟨hi, hkind⟩
    obtain ⟨s, hs, rfl⟩ | ⟨issue, hissue, rfl⟩ := (h.complete i).2 hi
    · exact .inl ⟨s, hs, rfl, (h.entry s hs).symm ▸ hkind⟩
    · exact .inr ⟨issue, hissue, rfl, (h.kind issue hissue).trans hkind⟩

namespace Parser

variable {p : Parser} {source : ByteArray} {base : Nat}

/-- The outcomes of the stored directory, entry by entry. -/
def storedOutcomes (p : Parser) (source : ByteArray) (base : Nat) :
    List (DirectoryEntry × Except FormatError Record) :=
  (List.range (Directory.countAt source (directoryPlace source base))).map fun i =>
    (entryAt source base i, p.outcome source base (entryAt source base i))

theorem getElem?_storedOutcomes {i : Nat} {entry : DirectoryEntry}
    {outcome : Except FormatError Record}
    (h : (p.storedOutcomes source base)[i]? = some (entry, outcome)) :
    entry = entryAt source base i ∧ p.outcome source base (entryAt source base i) = outcome := by
  rw [storedOutcomes, List.getElem?_map, Option.map_eq_some_iff] at h
  obtain ⟨j, hj, hpair⟩ := h
  obtain ⟨hlt, rfl⟩ := List.getElem?_eq_some_iff.1 hj
  rw [List.getElem_range] at hpair
  cases hpair
  exact ⟨rfl, rfl⟩

theorem getElem?_storedOutcomes_of_lt {i : Nat}
    (hi : i < Directory.countAt source (directoryPlace source base)) :
    (p.storedOutcomes source base)[i]? =
      some (entryAt source base i, p.outcome source base (entryAt source base i)) := by
  rw [storedOutcomes, List.getElem?_map, List.getElem?_range hi]
  rfl

/-- A lenient result is made of these outcomes, if all checks of the frame hold. Otherwise the
first broken one is the error. -/
theorem parse_of_lenient_eq_run (hp : p.strict = false) :
    p.parse source base =
      Check.run
        (DebugInfo.ofOutcomes (signatureOf source base) base
          (DirectoryHeader.stored source (directoryPlace source base))
          (p.storedOutcomes source base))
        (checks source base) := by
  rw [parse_of_lenient hp, readFrame_eq, Check.run_map]
  simp only [Directory.stored, outcomes, storedOutcomes, List.map_map]
  rfl

theorem eq_ofOutcomes_of_parse (hp : p.strict = false) {info : DebugInfo}
    (h : p.parse source base = .ok info) :
    ∃ signature, info = DebugInfo.ofOutcomes signature base
      (DirectoryHeader.stored source (directoryPlace source base))
      (p.storedOutcomes source base) := by
  rw [parse_of_lenient_eq_run hp] at h
  exact ⟨_, (Check.run_eq_ok.1 h).2⟩

/-- What is picked from the records is picked from the outcomes, entry by entry. -/
theorem filterMap_records {α : Type} {signature : Signature} {header : DirectoryHeader}
    (pick : Record → Option α) :
    (DebugInfo.ofOutcomes signature base header
        (p.storedOutcomes source base)).records.filterMap pick =
      (List.range (Directory.countAt source (directoryPlace source base))).filterMap fun i =>
        (p.outcome source base (entryAt source base i)).toOption.bind pick := by
  rw [DebugInfo.records_ofOutcomes, storedOutcomes, List.filterMap_map, List.filterMap_filterMap]
  rfl

theorem flatMap_filterMap {α β γ : Type} (f : α → Option β) (g : β → List γ) (items : List α) :
    (items.filterMap f).flatMap g = items.flatMap fun a => (f a).elim [] g := by
  induction items with
  | nil => rfl
  | cons a rest ih =>
    rw [List.filterMap_cons, List.flatMap_cons, ← ih]
    cases f a with
    | none => rfl
    | some b => rfl

theorem files_ofOutcomes {signature : Signature} {header : DirectoryHeader} :
    (DebugInfo.ofOutcomes signature base header (p.storedOutcomes source base)).resolver.files =
      (List.range (Directory.countAt source (directoryPlace source base))).flatMap fun i =>
        ((p.outcome source base (entryAt source base i)).toOption.bind
          Record.sourceModule?).elim [] SourceModule.files := by
  rw [DebugInfo.resolver, Resolver.ofModules, Resolver.files, DebugInfo.sourceModules,
    filterMap_records, flatMap_filterMap]

theorem decodes_of_mem_subsections {signature : Signature} {header : DirectoryHeader}
    {s : Subsection}
    (hs : s ∈ (DebugInfo.ofOutcomes signature base header
      (p.storedOutcomes source base)).subsections) :
    p.registry.Decodes source base s.entry s.record := by
  obtain ⟨hentry, hrecord⟩ := getElem?_storedOutcomes (DebugInfo.mem_subsections_ofOutcomes.1 hs)
  rw [← hentry] at hrecord
  exact decodes_of_outcome hrecord

/-- **No entry is lost, reported twice or moved.** -/
theorem accounts_of_parse (hp : p.strict = false) {info : DebugInfo}
    (h : p.parse source base = .ok info) : info.Accounts p source base := by
  obtain ⟨signature, rfl⟩ := eq_ofOutcomes_of_parse hp h
  constructor
  case header => rfl
  case subsectionsInOrder => exact DebugInfo.pairwise_subsections
  case issuesInOrder => exact DebugInfo.pairwise_issues
  case apart => exact fun s hs issue hissue => DebugInfo.index_ne_index hs hissue
  case complete =>
    intro i
    rw [DebugInfo.exists_index_iff, storedOutcomes, List.length_map, List.length_range]
    rfl
  case entry =>
    intro s hs
    exact (getElem?_storedOutcomes (DebugInfo.mem_subsections_ofOutcomes.1 hs)).1
  case record => exact fun s hs => decodes_of_mem_subsections hs
  case unsupported => exact fun s hs => (decodes_of_mem_subsections hs).eq_unsupported_iff
  case kind =>
    intro issue hissue
    obtain ⟨entry, hget, hkind, -⟩ := DebugInfo.mem_issues_ofOutcomes.1 hissue
    rw [hkind, (getElem?_storedOutcomes hget).1]
  case moduleIndex =>
    intro issue hissue
    obtain ⟨entry, hget, -, hmodule⟩ := DebugInfo.mem_issues_ofOutcomes.1 hissue
    rw [hmodule, (getElem?_storedOutcomes hget).1]
  case error =>
    intro issue hissue
    obtain ⟨entry, hget, -⟩ := DebugInfo.mem_issues_ofOutcomes.1 hissue
    exact decode_of_outcome (getElem?_storedOutcomes hget).2
  case sourceModules => exact filterMap_records Record.sourceModule?
  case modules => exact filterMap_records Record.moduleInfo?
  case files => exact files_ofOutcomes

/-- Three entries: a library list, content that no decoder is in charge of and that lies outside
the source, and global symbols that are cut off. -/
def mixedBlob : ByteArray :=
  ⟨#[0x4e, 0x42, 0x30, 0x39, 8, 0, 0, 0,
    16, 0, 12, 0, 3, 0, 0, 0, 0, 0, 0, 0, 0, 0, 0, 0,
    0x28, 1, 255, 255, 60, 0, 0, 0, 3, 0, 0, 0,
    0x21, 1, 1, 0, 231, 3, 0, 0, 5, 0, 0, 0,
    0x29, 1, 255, 255, 60, 0, 0, 0, 0, 0, 0, 0,
    0, 1, 97]⟩

theorem accounts_of_parse_mixedBlob :
    let info : DebugInfo :=
      ⟨.nb09, 0, ⟨16, 12, 3, 0, 0⟩,
        [⟨0, ⟨.libraries, 0xffff, 60, 3⟩, .libraries ["", "a"]⟩,
          ⟨1, ⟨.types, 1, 999, 5⟩, .unsupported .types⟩],
        [⟨2, .globalSymbols, 0xffff, .outOfBounds 60 2 60⟩]⟩
    default.strict = false ∧ default.parse mixedBlob 0 = .ok info ∧
      info.Accounts default mixedBlob 0 := by
  intro info
  have run : default.parse mixedBlob 0 = .ok info := rfl
  exact ⟨rfl, run, accounts_of_parse rfl run⟩

end Parser

end CodeView
