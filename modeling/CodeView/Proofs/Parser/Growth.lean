import CodeView.Proofs.Relocation.Blob

/-!
# More bytes

Bytes added behind a source can only cure a report that bytes are missing. Whatever else the parser
has found in the shorter source stands in the longer one: `Stands` says this of two results, and it
carries over from each reading to the readings made of it.
-/

namespace CodeView

/-- The report says that the source is too short. -/
def FormatError.isTruncated : FormatError → Bool
  | truncated .. => true
  | _ => false

/-- The later result is the first one, unless that said that the source is too short. -/
def Stands {α : Type} (first later : Except FormatError α) : Prop :=
  later = first ∨ ∃ e, first = .error e ∧ e.isTruncated = true

namespace Stands

variable {α β : Type} {first later : Except FormatError α}

theorem refl (first : Except FormatError α) : Stands first first :=
  .inl rfl

theorem bind {k k' : α → Except FormatError β} (h : Stands first later)
    (hk : ∀ a, Stands (k a) (k' a)) : Stands (first >>= k) (later >>= k') := by
  obtain rfl | ⟨e, rfl, he⟩ := h
  · cases later with
    | ok a => exact hk a
    | error e => exact refl _
  · exact .inr ⟨e, rfl, he⟩

theorem eq_ok {a : α} (h : Stands first later) (hfirst : first = .ok a) : later = .ok a := by
  obtain rfl | ⟨e, he, -⟩ := h
  · exact hfirst
  · rw [hfirst] at he
    cases he

theorem eq_error {e : FormatError} (h : Stands first later) (hfirst : first = .error e)
    (he : e.isTruncated = false) : later = .error e := by
  obtain rfl | ⟨e', he', htruncated⟩ := h
  · exact hfirst
  · rw [hfirst] at he'
    cases he'
    rw [he] at htruncated
    cases htruncated

/-! A check for room may succeed later only. Any other check must come out the same. -/

section Checks

variable {c c' : Prop} [Decidable c] [Decidable c'] {e e' : FormatError}

theorem room (he : e.isTruncated = true) (hc : c → c') (h : c → Stands first later) :
    Stands (if c then first else .error e) (if c' then later else .error e') := by
  by_cases hfirst : c
  · rw [if_pos hfirst, if_pos (hc hfirst)]
    exact h hfirst
  · rw [if_neg hfirst]
    exact .inr ⟨e, rfl, he⟩

theorem ite (h : Stands first later) :
    Stands (if c then first else .error e) (if c then later else .error e) := by
  by_cases hc : c
  · rw [if_pos hc, if_pos hc]
    exact h
  · rw [if_neg hc, if_neg hc]
    exact refl _

end Checks

end Stands

namespace Parser

variable {p : Parser} {part : ByteArray} {base : Nat}

/-! ## The frame -/

theorem le_size_append (part rest : ByteArray) : part.size ≤ (part ++ rest).size := by
  rw [ByteArray.size_append]
  exact Nat.le_add_right _ _

theorem stands_readHeader (part rest : ByteArray) (base : Nat) :
    Stands (readHeader part base) (readHeader (part ++ rest) base) := by
  have hsize := le_size_append part rest
  rw [readHeader_eq, readHeader_eq]
  simp only [headerChecks, Check.run, decide_eq_true_eq]
  -- what is judged after a check for room lies in the room found, so more bytes do not change it
  refine .room rfl (by omega) fun hbase => .room rfl (by omega) fun hfour => ?_
  have hsignature : signatureAt (part ++ rest) base = signatureAt part base :=
    signatureAt_congr (.append_left rest hfour)
  rw [signatureOf, signatureOf, hsignature]
  refine .ite (.room rfl (by omega) fun heads => ?_)
  have hhead : SameBytes part (part ++ rest) base base 8 := .append_left rest heads
  rw [hhead.wordAt_eq UInt32 4 (by decide)]
  exact .refl _

theorem stands_readDirectory (part rest : ByteArray) (base : Nat) (offset : UInt32) :
    Stands (readDirectory part base offset) (readDirectory (part ++ rest) base offset) := by
  have hsize := le_size_append part rest
  rw [readDirectory_eq, readDirectory_eq]
  generalize base + offset.toNat = place
  simp only [Directory.checks, Check.run, decide_eq_true_eq]
  refine .room rfl (by omega) fun hhead => ?_
  have hheader : DirectoryHeader.stored (part ++ rest) place = DirectoryHeader.stored part place :=
    DirectoryHeader.stored_congr (.append_left rest hhead)
  have hcount : Directory.countAt (part ++ rest) place = Directory.countAt part place := by
    rw [Directory.countAt, Directory.countAt, hheader]
  rw [hheader, hcount]
  refine .ite (.ite (.room rfl (by omega) fun hentries => ?_))
  have hstored : Directory.stored (part ++ rest) place = Directory.stored part place :=
    Directory.stored_congr (.append_left rest (by unfold Directory.lengthAt; omega))
  rw [hstored]
  exact .refl _

theorem stands_readFrame (part rest : ByteArray) (base : Nat) :
    Stands (readFrame part base) (readFrame (part ++ rest) base) :=
  (stands_readHeader part rest base).bind fun (_, offset) =>
    (stands_readDirectory part rest base offset).bind fun _ => .refl _

/-! ## Entries -/

theorem stands_outcome (p : Parser) (part rest : ByteArray) (base : Nat)
    (entry : DirectoryEntry) :
    Stands (p.outcome part base entry) (p.outcome (part ++ rest) base entry) := by
  have hsize := le_size_append part rest
  by_cases hfits : entry.limit base ≤ part.size
  · have same : p.outcome (part ++ rest) (base + 0) entry =
        (p.outcome part base entry).mapError (·.shift 0) :=
      outcome_of_fits hfits (Nat.le_trans hfits hsize) (.append_left rest hfits) (.inl rfl)
    rw [FormatError.mapError_shift_zero] at same
    exact .inl same
  · rw [outcome_eq, outcome_eq]
    cases p.registry.find? entry.kind with
    | none => exact .refl _
    | some decoder =>
      rw [content_of_not_fits hfits]
      exact .inr ⟨_, rfl, rfl⟩

/-- A strict walk takes every step again, up to a report that bytes are missing. -/
theorem stands_collect (hp : p.strict = true) (part rest : ByteArray) (base : Nat)
    (entries : List DirectoryEntry) (found : Findings) (index : Nat) :
    Stands (p.collect part base found index entries)
      (p.collect (part ++ rest) base found index entries) := by
  induction entries generalizing found index with
  | nil => exact .refl _
  | cons entry others ih =>
    -- a strict step hands on the error of the entry, so it stands or falls with the outcome
    have step : Stands (p.settle found index entry (p.outcome part base entry))
        (p.settle found index entry (p.outcome (part ++ rest) base entry)) := by
      obtain heq | ⟨e, he, htruncated⟩ := stands_outcome p part rest base entry
      · rw [heq]
        exact .refl _
      · refine .inr ⟨e, ?_, htruncated⟩
        rw [he, settle, hp]
        rfl
    rw [collect, collect]
    exact step.bind fun found => ih found (index + 1)

theorem stands_parse_of_strict (hp : p.strict = true) (part rest : ByteArray) (base : Nat) :
    Stands (p.parse part base) (p.parse (part ++ rest) base) :=
  (stands_readFrame part rest base).bind fun (_, directory) =>
    (stands_collect hp part rest base directory.entries _ 0).bind fun _ => .refl _

end Parser

/-! ## Results -/

/-- What a lenient parse of more bytes keeps of a result. -/
structure DebugInfo.KeptIn (info info' : DebugInfo) : Prop where
  signature : info'.signature = info.signature
  base : info'.base = info.base
  header : info'.header = info.header
  subsections : ∀ s ∈ info.subsections, s ∈ info'.subsections
  issues : ∀ issue ∈ info.issues, issue.error.isTruncated = false → issue ∈ info'.issues

namespace Parser

variable {p : Parser} {part : ByteArray} {base : Nat}

theorem getElem?_outcomes {entries : List DirectoryEntry} {i : Nat} {entry : DirectoryEntry}
    {outcome : Except FormatError Record} :
    (p.outcomes part base entries)[i]? = some (entry, outcome) ↔
      entries[i]? = some entry ∧ p.outcome part base entry = outcome := by
  rw [outcomes, List.getElem?_map, Option.map_eq_some_iff]
  constructor
  · rintro ⟨_, hentry, hpair⟩
    cases hpair
    exact ⟨hentry, rfl⟩
  · rintro ⟨hentry, rfl⟩
    exact ⟨entry, hentry, rfl⟩

theorem keptIn_ofOutcomes {signature : Signature} {header : DirectoryHeader}
    (rest : ByteArray) (entries : List DirectoryEntry) :
    (DebugInfo.ofOutcomes signature base header (p.outcomes part base entries)).KeptIn
      (DebugInfo.ofOutcomes signature base header
        (p.outcomes (part ++ rest) base entries)) := by
  constructor
  case signature => rfl
  case base => rfl
  case header => rfl
  case subsections =>
    intro s hs
    obtain ⟨hentry, hrecord⟩ := getElem?_outcomes.1 (DebugInfo.mem_subsections_ofOutcomes.1 hs)
    have later := (stands_outcome p part rest base s.entry).eq_ok hrecord
    exact DebugInfo.mem_subsections_ofOutcomes.2 (getElem?_outcomes.2 ⟨hentry, later⟩)
  case issues =>
    intro issue hissue hkeep
    obtain ⟨entry, hget, hkind, hmodule⟩ := DebugInfo.mem_issues_ofOutcomes.1 hissue
    obtain ⟨hentry, herror⟩ := getElem?_outcomes.1 hget
    have later := (stands_outcome p part rest base entry).eq_error herror hkeep
    exact DebugInfo.mem_issues_ofOutcomes.2
      ⟨entry, getElem?_outcomes.2 ⟨hentry, later⟩, hkind, hmodule⟩

/-- Without a report that bytes are missing nothing changes at all. -/
theorem outcomes_append {signature : Signature} {header : DirectoryHeader} (rest : ByteArray)
    (entries : List DirectoryEntry)
    (h : ∀ issue ∈ (DebugInfo.ofOutcomes signature base header
      (p.outcomes part base entries)).issues, issue.error.isTruncated = false) :
    p.outcomes (part ++ rest) base entries = p.outcomes part base entries := by
  apply List.map_congr_left
  intro entry hmem
  obtain heq | ⟨e, herror, htruncated⟩ := stands_outcome p part rest base entry
  · rw [heq]
  · obtain ⟨i, hi⟩ := List.getElem?_of_mem hmem
    have hkeep := h ⟨i, entry.kind, entry.moduleIndex, e⟩
      (DebugInfo.mem_issues_ofOutcomes.2
        ⟨entry, getElem?_outcomes.2 ⟨hi, herror⟩, rfl, rfl⟩)
    rw [htruncated] at hkeep
    cases hkeep

/-- What a result of either mode is in a lenient parse. -/
theorem parse_lenient_of_ok {info : DebugInfo} (h : p.parse part base = .ok info) :
    (p.set (.strict false)).parse part base = .ok info := by
  rw [← set_strict p] at h
  cases hp : p.strict with
  | false => rwa [hp] at h
  | true =>
    rw [hp, parse_set_strict] at h
    cases hlenient : (p.set (.strict false)).parse part base with
    | error e =>
      rw [hlenient] at h
      cases h
    | ok found =>
      -- a strict result is a lenient one without issues
      rw [hlenient] at h
      change found.orFirstIssue = .ok info at h
      unfold DebugInfo.orFirstIssue at h
      split at h
      case h_1 => exact h
      case h_2 => cases h

/-- A lenient parse of more bytes finds the same frame, and goes over the same entries. -/
theorem parse_append_of_lenient (hp : p.strict = false) (rest : ByteArray) {info : DebugInfo}
    (h : p.parse part base = .ok info) :
    ∃ signature header entries,
      info = DebugInfo.ofOutcomes signature base header (p.outcomes part base entries) ∧
      p.parse (part ++ rest) base = .ok (DebugInfo.ofOutcomes signature base header
        (p.outcomes (part ++ rest) base entries)) := by
  obtain ⟨signature, directory, hframe, rfl⟩ := (parse_eq_ok_iff hp).1 h
  have later := (stands_readFrame part rest base).eq_ok hframe
  exact ⟨signature, directory.header, directory.entries, rfl,
    (parse_eq_ok_iff hp).2 ⟨signature, directory, later, rfl⟩⟩

/-- What a parse of the first bytes of a source says about the whole of it. -/
structure Keeps (p : Parser) (part whole : ByteArray) (base : Nat) : Prop where
  error : ∀ e, p.parse part base = .error e → e.isTruncated = false →
    p.parse whole base = .error e
  ok : ∀ info, p.parse part base = .ok info →
    ∃ info', (p.set (.strict false)).parse whole base = .ok info' ∧ info.KeptIn info'
  same : ∀ info, p.parse part base = .ok info →
    (∀ issue ∈ info.issues, issue.error.isTruncated = false) →
    p.parse whole base = .ok info ∧ (p.set (.strict false)).parse whole base = .ok info

theorem parse_append_of_error {e : FormatError} (rest : ByteArray)
    (h : p.parse part base = .error e) (he : e.isTruncated = false) :
    p.parse (part ++ rest) base = .error e := by
  cases hp : p.strict with
  | true => exact (stands_parse_of_strict hp part rest base).eq_error h he
  | false =>
    rw [parse_eq_error_iff hp] at h ⊢
    exact (stands_readFrame part rest base).eq_error h he

theorem parse_append_of_complete {info : DebugInfo} (rest : ByteArray)
    (h : p.parse part base = .ok info)
    (hcomplete : ∀ issue ∈ info.issues, issue.error.isTruncated = false) :
    p.parse (part ++ rest) base = .ok info := by
  cases hp : p.strict with
  | true => exact (stands_parse_of_strict hp part rest base).eq_ok h
  | false =>
    obtain ⟨signature, header, entries, rfl, later⟩ := parse_append_of_lenient hp rest h
    rw [later, outcomes_append rest entries hcomplete]

theorem keeps_append (p : Parser) (part rest : ByteArray) (base : Nat) :
    p.Keeps part (part ++ rest) base where
  error _ h he := parse_append_of_error rest h he
  ok _ h := by
    obtain ⟨signature, header, entries, rfl, later⟩ :=
      parse_append_of_lenient rfl rest (parse_lenient_of_ok h)
    exact ⟨_, later, keptIn_ofOutcomes rest entries⟩
  same _ h hcomplete :=
    ⟨parse_append_of_complete rest h hcomplete,
      parse_append_of_complete rest (parse_lenient_of_ok h) hcomplete⟩

end Parser

theorem Executable.visibleBytes_append (source : ByteArray) (blob : Image.BlobLocation) :
    ∃ rest, visibleBytes source blob ++ rest = source := by
  refine ⟨source.extract (min (blob.offset + blob.size) source.size) source.size, ?_⟩
  rw [visibleBytes, ByteArray.extract_append_extract]
  simp

/-- **Only missing bytes can be cured by more bytes.** Whatever a parse finds in a source other
than that bytes are missing, in either mode, it finds there too when bytes are added behind the
source. So an image, of which nothing behind the declared blob is read, can differ from the whole
file only by reports of missing bytes. -/
theorem Parser.keeps_more (p : Parser) :
    (∀ part rest base, p.Keeps part (part ++ rest) base) ∧
      ∀ source blob, p.Keeps (Executable.visibleBytes source blob) source blob.offset := by
  refine ⟨p.keeps_append, fun source blob => ?_⟩
  obtain ⟨rest, hrest⟩ := Executable.visibleBytes_append source blob
  have keeps := p.keeps_append (Executable.visibleBytes source blob) rest blob.offset
  rwa [hrest] at keeps

/-- Global symbols that overrun their own window, and a library list of which the given bytes are
there. -/
def Parser.cutBlob (list : Array UInt8) : ByteArray :=
  ⟨#[0x4e, 0x42, 0x30, 0x39, 8, 0, 0, 0,
    16, 0, 12, 0, 2, 0, 0, 0, 0, 0, 0, 0, 0, 0, 0, 0,
    0x29, 1, 255, 255, 48, 0, 0, 0, 0, 0, 0, 0,
    0x28, 1, 255, 255, 48, 0, 0, 0, 2, 0, 0, 0] ++ list⟩

/-- Two more bytes cure the list that is cut off, and nothing else. -/
theorem Parser.keeps_more_cutBlob :
    ∃ info info', default.parse (cutBlob #[]) 0 = .ok info ∧
      default.parse (cutBlob #[1, 97]) 0 = .ok info' ∧ info.KeptIn info' ∧
      info.issues.map (·.error) =
        [.outOfBounds 48 2 48, .truncated "subsection content" 2 0] ∧
      info'.issues.map (·.error) = [.outOfBounds 48 2 48] ∧
      info'.records = [.libraries ["a"]] := by
  have run : default.parse (cutBlob #[]) 0 = .ok ⟨.nb09, 0, ⟨16, 12, 2, 0, 0⟩, [],
      [⟨0, .globalSymbols, 0xffff, .outOfBounds 48 2 48⟩,
        ⟨1, .libraries, 0xffff, .truncated "subsection content" 2 0⟩]⟩ := rfl
  have whole : default.parse (cutBlob #[1, 97]) 0 = .ok ⟨.nb09, 0, ⟨16, 12, 2, 0, 0⟩,
      [⟨1, ⟨.libraries, 0xffff, 48, 2⟩, .libraries ["a"]⟩],
      [⟨0, .globalSymbols, 0xffff, .outOfBounds 48 2 48⟩]⟩ := rfl
  have joined : cutBlob #[] ++ ⟨#[1, 97]⟩ = cutBlob #[1, 97] := by decide
  have keeps := default.keeps_more.1 (cutBlob #[]) ⟨#[1, 97]⟩ 0
  rw [joined] at keeps
  obtain ⟨info', later, kept⟩ := keeps.ok _ run
  cases later.symm.trans whole
  exact ⟨_, _, run, whole, kept, rfl, rfl, rfl⟩

end CodeView
