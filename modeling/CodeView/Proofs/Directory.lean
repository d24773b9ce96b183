import CodeView.Directory
import CodeView.Proofs.Check
import CodeView.Proofs.Reading

/-!
# What the reader of directories accepts

A directory is read exactly if its header and all entries that the header counts lie in the
window and the header declares the two sizes of the layout. What is read is what is stored, and
where nothing is read the first broken one of four checks is reported.
-/

namespace CodeView.Directory

open Read

/-- Where entry `i` of the directory at a position lies. -/
def entryPlace (position i : Nat) : Nat :=
  position + DirectoryHeader.width + i * DirectoryEntry.width

/-- Number of entries of the directory at a position. -/
def countAt (source : ByteArray) (position : Nat) : Nat :=
  (DirectoryHeader.stored source position).entryCount.toNat

/-- The directory stored at a position. -/
def stored (source : ByteArray) (position : Nat) : Directory where
  header := DirectoryHeader.stored source position
  entries := (List.range (countAt source position)).map fun i =>
    DirectoryEntry.stored source (entryPlace position i)

/-- The directory at a position ends in time and declares the sizes of the layout. -/
structure Fits (source : ByteArray) (limit position : Nat) : Prop where
  head : position + DirectoryHeader.width ≤ limit
  headerSize : (DirectoryHeader.stored source position).headerSize.toNat = DirectoryHeader.width
  entrySize : (DirectoryHeader.stored source position).entrySize.toNat = DirectoryEntry.width
  entries : entryPlace position (countAt source position) ≤ limit

theorem read_eq_ok {c c' : Cursor} {d : Directory} :
    read c = .ok d c' ↔
      Fits c.source c.limit c.pos ∧ d = stored c.source c.pos ∧
        c' = c.moveTo (entryPlace c.pos (countAt c.source c.pos)) := by
  simp only [read, remaining_bind_eq_ok, guard_bind_eq_ok, fixed_bind_eq_ok, table_bind_eq_ok,
    pure_eq_ok]
  simp only [Cursor.pos_moveTo, Cursor.source_moveTo, Cursor.limit_moveTo, Cursor.moveTo_moveTo,
    Cursor.remaining, Decidable.not_not]
  rw [toList_ofFn _ fun i => DirectoryEntry.stored c.source
    (c.pos + DirectoryHeader.width + i * DirectoryEntry.width)]
  constructor
  · intro h
    obtain ⟨-, hhead, hheader, hentry, -, hfit, hd, hc⟩ := h
    exact ⟨⟨hhead, hheader, hentry, hfit⟩, hd, hc⟩
  · intro h
    obtain ⟨⟨hhead, hheader, hentry, hfit⟩, hd, hc⟩ := h
    simp only [entryPlace, countAt] at hfit
    exact ⟨by omega, hhead, hheader, hentry, by omega, hfit, hd, hc⟩

/-! ## What is reported otherwise -/

/-- The checks of the directory at a position, in the order in which they are made. -/
def checks (source : ByteArray) (limit position : Nat) : List Check :=
  let header := DirectoryHeader.stored source position
  let behind := position + DirectoryHeader.width
  let needed := countAt source position * DirectoryEntry.width
  [⟨behind ≤ limit, .truncated "directory header" DirectoryHeader.width (limit - position)⟩,
    ⟨header.headerSize.toNat = DirectoryHeader.width,
      .layoutMismatch "header size" header.headerSize.toUInt32 (.ofNat DirectoryHeader.width)⟩,
    ⟨header.entrySize.toNat = DirectoryEntry.width,
      .layoutMismatch "entry size" header.entrySize.toUInt32 (.ofNat DirectoryEntry.width)⟩,
    ⟨behind + needed ≤ limit, .truncated "directory entries" needed (limit - behind)⟩]

theorem holds_checks_iff {source : ByteArray} {limit position : Nat} :
    (∀ check ∈ checks source limit position, check.holds = true) ↔
      Fits source limit position := by
  simp only [checks, List.forall_mem_cons, decide_eq_true_eq, List.not_mem_nil, false_implies,
    implies_true, and_true]
  constructor
  · rintro ⟨head, headerSize, entrySize, entries⟩
    exact ⟨head, headerSize, entrySize, entries⟩
  · rintro ⟨head, headerSize, entrySize, entries⟩
    exact ⟨head, headerSize, entrySize, entries⟩

theorem result_read (c : Cursor) :
    read.result c = Check.run (stored c.source c.pos) (checks c.source c.limit c.pos) := by
  by_cases hfits : Fits c.source c.limit c.pos
  · rw [result_of_ok (read_eq_ok.2 ⟨hfits, rfl, rfl⟩)]
    exact (Check.run_eq_ok.2 ⟨holds_checks_iff.2 hfits, rfl⟩).symm
  unfold read
  simp only [result_remaining_bind, result_guard_bind, result_fixed_bind, checks, Check.run,
    decide_eq_true_eq]
  have hleft : c.remaining = c.limit - c.pos := rfl
  by_cases hhead : c.pos + DirectoryHeader.width ≤ c.limit
  · have hroom : ¬ c.remaining < DirectoryHeader.width := by omega
    rw [if_neg hroom, if_pos hhead, if_pos hhead]
    by_cases hheader :
        (DirectoryHeader.stored c.source c.pos).headerSize.toNat = DirectoryHeader.width
    · rw [if_neg (Decidable.not_not.2 hheader), if_pos hheader]
      by_cases hentry :
          (DirectoryHeader.stored c.source c.pos).entrySize.toNat = DirectoryEntry.width
      · rw [if_neg (Decidable.not_not.2 hentry), if_pos hentry]
        have hentries : ¬ entryPlace c.pos (countAt c.source c.pos) ≤ c.limit :=
          fun hentries => hfits ⟨hhead, hheader, hentry, hentries⟩
        have hneeded : (c.moveTo (c.pos + DirectoryHeader.width)).remaining <
            countAt c.source c.pos * DirectoryEntry.width := by
          show c.limit - (c.pos + DirectoryHeader.width) < _
          unfold entryPlace at hentries
          omega
        exact (if_pos hneeded).trans (if_neg hentries).symm
      · rw [if_pos hentry, if_neg hentry]
    · rw [if_pos hheader, if_neg hheader]
  · have hroom : c.remaining < DirectoryHeader.width := by
      have hwidth : DirectoryHeader.width = 16 := rfl
      omega
    rw [if_pos hroom, if_neg hhead, hleft]

end CodeView.Directory

/-! ## The same directory at two places -/

namespace CodeView

variable {source target : ByteArray} {p q : Nat}

theorem DirectoryHeader.stored_congr (h : SameBytes source target p q width) :
    stored target q = stored source p := by
  have headerSize := h.wordAt_eq UInt16 0 (by decide)
  have entrySize := h.wordAt_eq UInt16 2 (by decide)
  have entryCount := h.wordAt_eq UInt32 4 (by decide)
  have nextDirectory := h.wordAt_eq UInt32 8 (by decide)
  have flags := h.wordAt_eq UInt32 12 (by decide)
  simp only [Nat.add_zero] at headerSize
  simp only [stored, headerSize, entrySize, entryCount, nextDirectory, flags]

theorem DirectoryEntry.stored_congr (h : SameBytes source target p q width) :
    stored target q = stored source p := by
  have kind := h.wordAt_eq UInt16 0 (by decide)
  have moduleIndex := h.wordAt_eq UInt16 2 (by decide)
  have offset := h.wordAt_eq UInt32 4 (by decide)
  have size := h.wordAt_eq UInt32 8 (by decide)
  simp only [Nat.add_zero] at kind
  simp only [stored, kind, moduleIndex, offset, size]

namespace Directory

/-- Length of the directory at a position, with all entries that its header counts. -/
def lengthAt (source : ByteArray) (position : Nat) : Nat :=
  DirectoryHeader.width + countAt source position * DirectoryEntry.width

theorem header_of_sameBytes (h : SameBytes source target p q (lengthAt source p)) :
    DirectoryHeader.stored target q = DirectoryHeader.stored source p :=
  DirectoryHeader.stored_congr (h.part 0 (by unfold lengthAt; omega))

theorem countAt_of_sameBytes (h : SameBytes source target p q (lengthAt source p)) :
    countAt target q = countAt source p := by
  rw [countAt, countAt, header_of_sameBytes h]

theorem entry_of_sameBytes (h : SameBytes source target p q (lengthAt source p)) {i : Nat}
    (hi : i < countAt source p) :
    DirectoryEntry.stored target (entryPlace q i) =
      DirectoryEntry.stored source (entryPlace p i) := by
  have hnext : (i + 1) * DirectoryEntry.width ≤ countAt source p * DirectoryEntry.width :=
    Nat.mul_le_mul_right _ hi
  rw [Nat.add_one_mul] at hnext
  rw [entryPlace, entryPlace, Nat.add_assoc, Nat.add_assoc]
  exact DirectoryEntry.stored_congr (h.part _ (by unfold lengthAt; omega))

theorem stored_congr (h : SameBytes source target p q (lengthAt source p)) :
    stored target q = stored source p := by
  rw [stored, stored, header_of_sameBytes h, countAt_of_sameBytes h]
  rw [List.map_congr_left fun i hi => entry_of_sameBytes h (List.mem_range.1 hi)]

end Directory

end CodeView
