import CodeView.Executable
import CodeView.Proofs.Parser.Accounting
import CodeView.Proofs.Parser.Modes
import CodeView.Proofs.Relocation.Decoder

/-!
# Blobs elsewhere

A blob may stand at two places, in one source or in two. What is read of its frame, and what
becomes of an entry, depends on the bytes of the frame and of the content that the entry declares,
and on the room behind them. `Parser.parse_behind` says this of a source with other bytes in front
of it: the positions in errors and issues move, and nothing else changes.
-/

namespace CodeView

variable {source target : ByteArray} {base distance : Nat}

/-! ## The frame -/

/-- The frame of the blob at `base` stands `distance` further on in another source, with as much
room behind it. -/
structure SameFrame (source target : ByteArray) (base distance : Nat) : Prop where
  size : target.size = source.size + distance
  header : SameBytes source target base (base + distance) 8
  directory : SameBytes source target (Parser.directoryPlace source base)
    (Parser.directoryPlace source base + distance)
    (Directory.lengthAt source (Parser.directoryPlace source base))

namespace SameFrame

theorem signatureAt_eq (h : SameFrame source target base distance) :
    Parser.signatureAt target (base + distance) = Parser.signatureAt source base :=
  Parser.signatureAt_congr (h.header.part 0 (by decide))

theorem directoryPlace_eq (h : SameFrame source target base distance) :
    Parser.directoryPlace target (base + distance) =
      Parser.directoryPlace source base + distance := by
  have hoffset := h.header.wordAt_eq UInt32 4 (by decide)
  rw [Parser.directoryPlace, Parser.directoryPlace, hoffset, Nat.add_right_comm]

theorem signatureOf_eq (h : SameFrame source target base distance) :
    Parser.signatureOf target (base + distance) = Parser.signatureOf source base := by
  rw [Parser.signatureOf, Parser.signatureOf, h.signatureAt_eq]

theorem countAt_eq (h : SameFrame source target base distance) :
    Directory.countAt target (Parser.directoryPlace target (base + distance)) =
      Directory.countAt source (Parser.directoryPlace source base) := by
  rw [h.directoryPlace_eq]
  exact Directory.countAt_of_sameBytes h.directory

theorem header_eq (h : SameFrame source target base distance) :
    DirectoryHeader.stored target (Parser.directoryPlace target (base + distance)) =
      DirectoryHeader.stored source (Parser.directoryPlace source base) := by
  rw [h.directoryPlace_eq]
  exact Directory.header_of_sameBytes h.directory

theorem entryAt_eq (h : SameFrame source target base distance) {i : Nat}
    (hi : i < Directory.countAt source (Parser.directoryPlace source base)) :
    Parser.entryAt target (base + distance) i = Parser.entryAt source base i := by
  rw [Parser.entryAt, Parser.entryAt, h.directoryPlace_eq]
  exact Directory.entry_of_sameBytes h.directory hi

theorem headerChecks_eq (h : SameFrame source target base distance) :
    Parser.headerChecks target (base + distance) =
      (Parser.headerChecks source base).map (Check.shift distance) := by
  simp [Parser.headerChecks, Check.shift, FormatError.shift, h.size, h.signatureAt_eq,
    Nat.add_right_comm base distance, Nat.add_sub_add_right]

theorem directoryChecks_eq (h : SameFrame source target base distance) :
    Directory.checks target target.size (Parser.directoryPlace target (base + distance)) =
      (Directory.checks source source.size (Parser.directoryPlace source base)).map
        (Check.shift distance) := by
  have hheader := Directory.header_of_sameBytes h.directory
  have hcount := Directory.countAt_of_sameBytes h.directory
  rw [h.directoryPlace_eq, h.size]
  simp [Directory.checks, Check.shift, FormatError.shift, hheader, hcount,
    Nat.add_right_comm _ distance, Nat.add_sub_add_right]

theorem checks_eq (h : SameFrame source target base distance) :
    Parser.checks target (base + distance) =
      (Parser.checks source base).map (Check.shift distance) := by
  rw [Parser.checks, Parser.checks, h.headerChecks_eq, h.directoryChecks_eq, List.map_append]

end SameFrame

/-! ## One entry -/

theorem FormatError.mapError_shift_zero {α : Type} (x : Except FormatError α) :
    x.mapError (·.shift 0) = x := by
  cases x with
  | ok a => rfl
  | error e => exact congrArg Except.error e.shift_zero

namespace Relocation

/-- The same bytes in two windows. Only a window that moves has to lie where every offset can be
added to a position. -/
def ofSameBytes {start length : Nat} (same : SameBytes source target start (start + distance) length)
    (near : distance = 0 ∨ start + distance + length < 0x8000000000000000) : Relocation where
  source := source
  target := target
  start := start
  limit := start + length
  distance := distance
  same := by
    intro i hstart hlimit
    have hi := same (i - start) (by omega)
    rwa [show start + distance + (i - start) = i + distance from by omega,
      show start + (i - start) = i from by omega] at hi
  nameable := by
    intro base hstart hlimit offset
    have hoffset := offset.toNat_lt
    unfold Cursor.maxPosition UInt64.size
    omega

theorem Agree.result_eq {m : Relocation} {α : Type} {r r' : Read α} (h : m.Agree r r')
    {pos : Nat} (hpos : m.Within pos) :
    r'.result (m.there pos) = (r.result (m.here pos)).mapError (·.shift m.distance) := by
  have agree := h pos hpos
  rw [Read.result, Read.result]
  cases hrun : r (m.here pos) with
  | ok a c' =>
    obtain ⟨_, _, hthere⟩ := (hrun ▸ agree).of_ok
    rw [hthere]
    rfl
  | error e c' =>
    obtain ⟨_, _, hthere⟩ := (hrun ▸ agree).of_error
    rw [hthere]
    rfl

end Relocation

/-- Where the content of an entry ends, in a blob with the given base. -/
def DirectoryEntry.limit (entry : DirectoryEntry) (base : Nat) : Nat :=
  base + entry.offset.toNat + entry.size.toNat

namespace Parser

variable {p : Parser} {entry : DirectoryEntry}

theorem outcome_eq (p : Parser) (source : ByteArray) (base : Nat) (entry : DirectoryEntry) :
    p.outcome source base entry =
      match p.registry.find? entry.kind with
      | none => .ok (.unsupported entry.kind)
      | some decoder => (Registry.content source base entry).bind decoder.read.result := by
  rw [outcome, Registry.decode]
  cases p.registry.find? entry.kind with
  | none => rfl
  | some decoder =>
    cases Registry.content source base entry with
    | error e => simp [Except.map, Except.bind]
    | ok c =>
      simp only [Except.bind, Read.result]
      cases decoder.read c <;> rfl

theorem content_of_fits (hfits : entry.limit base ≤ source.size) :
    Registry.content source base entry =
      .ok ⟨source, base + entry.offset.toNat, entry.limit base, base + entry.offset.toNat⟩ :=
  Cursor.window_eq_ok.2 ⟨hfits, rfl⟩

theorem content_of_not_fits (hfits : ¬ entry.limit base ≤ source.size) :
    Registry.content source base entry =
      .error (.truncated "subsection content" entry.size.toNat
        (source.size - (base + entry.offset.toNat))) :=
  if_neg hfits

/-- Where two sources hold the content of an entry, the outcomes differ by the distance. -/
theorem outcome_of_fits (hfits : entry.limit base ≤ source.size)
    (hfits' : entry.limit (base + distance) ≤ target.size)
    (same : SameBytes source target (base + entry.offset.toNat)
      (base + entry.offset.toNat + distance) entry.size.toNat)
    (near : distance = 0 ∨ target.size < 0x8000000000000000) :
    p.outcome target (base + distance) entry =
      (p.outcome source base entry).mapError (·.shift distance) := by
  rw [outcome_eq, outcome_eq]
  cases p.registry.find? entry.kind with
  | none => rfl
  | some decoder =>
    rw [content_of_fits hfits, content_of_fits hfits']
    unfold DirectoryEntry.limit at *
    rw [Nat.add_right_comm base distance] at hfits' ⊢
    let m := Relocation.ofSameBytes same (by omega)
    have hstart : m.Within (base + entry.offset.toNat) := ⟨Nat.le_refl _, Nat.le_add_right _ _⟩
    have hresult := (decoder.agree_read (m := m)).result_eq hstart
    rw [Nat.add_right_comm _ distance entry.size.toNat]
    exact hresult

theorem outcome_eq_of_sameBytes (hsize : target.size = source.size + distance)
    (same : entry.limit base ≤ source.size →
      SameBytes source target (base + entry.offset.toNat)
        (base + entry.offset.toNat + distance) entry.size.toNat)
    (near : distance = 0 ∨ target.size < 0x8000000000000000) :
    p.outcome target (base + distance) entry =
      (p.outcome source base entry).mapError (·.shift distance) := by
  have hlimit : entry.limit (base + distance) = entry.limit base + distance := by
    unfold DirectoryEntry.limit
    omega
  by_cases hfits : entry.limit base ≤ source.size
  · exact outcome_of_fits hfits (by omega) (same hfits) near
  · rw [outcome_eq, outcome_eq]
    cases p.registry.find? entry.kind with
    | none => rfl
    | some decoder =>
      rw [content_of_not_fits hfits, content_of_not_fits (by omega), hsize,
        Nat.add_right_comm base distance, Nat.add_sub_add_right]
      rfl

end Parser

/-! ## The whole blob -/

/-- The same issue with a blob that lies `distance` further on. -/
def Issue.shift (distance : Nat) (issue : Issue) : Issue :=
  { issue with error := issue.error.shift distance }

namespace DebugInfo

/-- The same result for a blob that lies `distance` further on. -/
def shift (distance : Nat) (info : DebugInfo) : DebugInfo :=
  { info with
    base := info.base + distance
    issues := info.issues.map (Issue.shift distance) }

theorem ofOutcomes_mapError {signature : Signature} {header : DirectoryHeader}
    (outcomes : List (DirectoryEntry × Except FormatError Record)) :
    ofOutcomes signature (base + distance) header
        (outcomes.map fun outcome => (outcome.1, outcome.2.mapError (·.shift distance))) =
      (ofOutcomes signature base header outcomes).shift distance := by
  let moved (outcome : DirectoryEntry × Except FormatError Record) :=
    (outcome.1, outcome.2.mapError (·.shift distance))
  have hsubsection : Subsection.ofOutcome? ∘ Prod.map moved id = Subsection.ofOutcome? := by
    funext ⟨⟨entry, outcome⟩, index⟩
    cases outcome <;> rfl
  have hissue : Issue.ofOutcome? ∘ Prod.map moved id =
      fun outcome => (Issue.ofOutcome? outcome).map (Issue.shift distance) := by
    funext ⟨⟨entry, outcome⟩, index⟩
    cases outcome <;> rfl
  simp only [ofOutcomes, shift, List.zipIdx_map, List.filterMap_map, List.map_filterMap]
  rw [hsubsection, hissue]

/-- The result, or the error, for a blob that lies `distance` further on. -/
def shiftResult (distance : Nat) (result : Except FormatError DebugInfo) :
    Except FormatError DebugInfo :=
  (result.map (shift distance)).mapError (·.shift distance)

theorem orFirstIssue_shift (result : Except FormatError DebugInfo) :
    (shiftResult distance result).bind orFirstIssue =
      shiftResult distance (result.bind orFirstIssue) := by
  cases result with
  | error e => rfl
  | ok info =>
    obtain ⟨signature, base, header, subsections, issues⟩ := info
    cases issues with
    | nil => rfl
    | cons issue rest => rfl

end DebugInfo

namespace Parser

variable {p : Parser}

theorem storedOutcomes_eq (h : SameFrame source target base distance)
    (same : ∀ entry, p.outcome target (base + distance) entry =
      (p.outcome source base entry).mapError (·.shift distance)) :
    p.storedOutcomes target (base + distance) =
      (p.storedOutcomes source base).map fun outcome =>
        (outcome.1, outcome.2.mapError (·.shift distance)) := by
  rw [storedOutcomes, storedOutcomes, h.countAt_eq, List.map_map]
  apply List.map_congr_left
  intro i hi
  rw [Function.comp_apply, h.entryAt_eq (List.mem_range.1 hi), same]

theorem parse_of_lenient_moved (hp : p.strict = false)
    (h : SameFrame source target base distance)
    (same : ∀ entry, p.outcome target (base + distance) entry =
      (p.outcome source base entry).mapError (·.shift distance)) :
    p.parse target (base + distance) =
      DebugInfo.shiftResult distance (p.parse source base) := by
  rw [parse_of_lenient_eq_run hp, parse_of_lenient_eq_run hp, h.signatureOf_eq, h.header_eq,
    h.checks_eq, storedOutcomes_eq h same, DebugInfo.ofOutcomes_mapError, Check.run_map_shift,
    DebugInfo.shiftResult, Check.run_map]

theorem set_strict (p : Parser) : p.set (.strict p.strict) = p := rfl

/-- A parser treats both blobs alike if it treats each entry alike. -/
theorem parse_moved (h : SameFrame source target base distance)
    (same : ∀ entry, p.outcome target (base + distance) entry =
      (p.outcome source base entry).mapError (·.shift distance)) :
    p.parse target (base + distance) =
      DebugInfo.shiftResult distance (p.parse source base) := by
  have lenient : (p.set (.strict false)).parse target (base + distance) =
      DebugInfo.shiftResult distance ((p.set (.strict false)).parse source base) :=
    parse_of_lenient_moved rfl h same
  -- the strict result is a function of the lenient one, and that commutes with the move
  rw [← set_strict p]
  cases p.strict with
  | false => exact lenient
  | true => rw [parse_set_strict, parse_set_strict, lenient, DebugInfo.orFirstIssue_shift]

theorem sameFrame_append (before blob : ByteArray) (base : Nat) :
    SameFrame blob (before ++ blob) base before.size where
  size := by rw [ByteArray.size_append, Nat.add_comm]
  header := .append_right before blob base 8
  directory := .append_right before blob _ _

/-- **A parse does not depend on where the blob stands.** With other bytes before it the base and
the positions in errors and issues move by their number, in both modes. Nothing else changes, so
every question about lines is answered alike and the listing is the same. -/
theorem parse_behind (p : Parser) (before blob : ByteArray) (base : Nat)
    (hsize : before.size + blob.size < 0x8000000000000000) :
    p.parse (before ++ blob) (base + before.size) =
        DebugInfo.shiftResult before.size (p.parse blob base) ∧
      ∀ info info', p.parse blob base = .ok info →
        p.parse (before ++ blob) (base + before.size) = .ok info' →
        info'.resolver = info.resolver ∧ info'.listing = info.listing := by
  have hlength : (before ++ blob).size = blob.size + before.size := by
    rw [ByteArray.size_append, Nat.add_comm]
  have moved : p.parse (before ++ blob) (base + before.size) =
      DebugInfo.shiftResult before.size (p.parse blob base) := by
    apply parse_moved (sameFrame_append before blob base)
    intro entry
    exact outcome_eq_of_sameBytes hlength (fun _ => .append_right before blob _ _)
      (.inr (by omega))
  refine ⟨moved, fun info info' h h' => ?_⟩
  rw [moved, h] at h'
  cases h'
  exact ⟨rfl, rfl⟩

/-- A record that is cut off, with three other bytes before the blob. -/
theorem parse_behind_mixedBlob :
    let before : ByteArray := ⟨#[0x4e, 0x42, 0x30]⟩
    before.size + mixedBlob.size < 0x8000000000000000 ∧
      ∃ info, default.parse (before ++ mixedBlob) 3 = .ok info ∧ info.base = 3 ∧
        info.records = [.libraries ["", "a"], .unsupported .types] ∧
        info.issues = [⟨2, .globalSymbols, 0xffff, .outOfBounds 63 2 63⟩] := by
  intro before
  have hsize : before.size + mixedBlob.size < 0x8000000000000000 := by decide
  have moved := (parse_behind default before mixedBlob 0 hsize).1
  exact ⟨hsize, _, moved, rfl, rfl, rfl⟩

end Parser

end CodeView
