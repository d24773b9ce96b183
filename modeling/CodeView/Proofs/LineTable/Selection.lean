import CodeView.LineTable

/-!
# The line at an offset

`LineTable.lineAt?` searches by halving. In a well-formed table the search ends where the offsets
begin to lie above the given one, and `lineAt?_eq_some_iff` says which entry gives the line. Where
entries begin at that very offset it is the last of them (`Selects.recordsLast`).
-/

namespace CodeView.LineTable

/-- Entry `index` gives the line at an offset: its own offset is the last that is not above the
given one, or all offsets are above it and it is the first entry. -/
structure Selects (t : LineTable) (offset : UInt32) (index : Nat) : Prop where
  inside : index < t.offsets.size
  reached : t.offsets.getD index 0 ≤ offset ∨ index = 0
  above : ∀ j, index < j → j < t.offsets.size → offset < t.offsets.getD j 0

theorem Selects.unique {t : LineTable} {offset : UInt32} {i j : Nat} (hi : t.Selects offset i)
    (hj : t.Selects offset j) : i = j := by
  rcases Nat.lt_trichotomy i j with h | h | h
  · rcases hj.reached with hle | h0
    · exact absurd (hi.above j h hj.inside) (UInt32.not_lt.2 hle)
    · omega
  · exact h
  · rcases hi.reached with hle | h0
    · exact absurd (hj.above i h hi.inside) (UInt32.not_lt.2 hle)
    · omega

/-! ## The search -/

/-- The first `count` offsets are not above the given one, and all others are. -/
structure Splits (offsets : Array UInt32) (offset : UInt32) (count : Nat) : Prop where
  within : count ≤ offsets.size
  below : ∀ i < count, offsets.getD i 0 ≤ offset
  above : ∀ i, count ≤ i → i < offsets.size → offset < offsets.getD i 0

/-- All along the search the offsets before `low` are not above the given one and those from `high`
on are. Each step moves one of the two bounds past the middle. -/
theorem splits_countUpTo {offsets : Array UInt32} {offset : UInt32}
    (sorted : ∀ i j, i ≤ j → j < offsets.size → offsets.getD i 0 ≤ offsets.getD j 0)
    {fuel low high : Nat} (hfuel : high ≤ low + fuel) (hlow : low ≤ high)
    (hhigh : high ≤ offsets.size) (below : ∀ i < low, offsets.getD i 0 ≤ offset)
    (above : ∀ i, high ≤ i → i < offsets.size → offset < offsets.getD i 0) :
    Splits offsets offset (countUpTo offsets offset fuel low high) := by
  induction fuel generalizing low high with
  | zero =>
    obtain rfl : high = low := by omega
    exact ⟨hhigh, below, above⟩
  | succ fuel ih =>
    rw [countUpTo]
    by_cases hlt : low < high
    · have hfirst : low ≤ low + (high - low) / 2 := by omega
      have hlast : low + (high - low) / 2 < high := by omega
      rw [if_pos hlt]
      generalize low + (high - low) / 2 = middle at hfirst hlast
      by_cases hle : offsets.getD middle 0 ≤ offset
      · rw [if_pos hle]
        refine ih (by omega) (by omega) hhigh ?_ above
        intro i hi
        exact UInt32.le_trans (sorted i middle (by omega) (by omega)) hle
      · rw [if_neg hle]
        refine ih (by omega) hfirst (by omega) below ?_
        intro i hi hsize
        exact UInt32.lt_of_lt_of_le (UInt32.not_le.1 hle) (sorted middle i hi hsize)
    · rw [if_neg hlt]
      obtain rfl : high = low := by omega
      exact ⟨hhigh, below, above⟩

variable {t : LineTable} {offset : UInt32} {line : UInt16}

/-- The entry before the split, or the first one, is the one that is selected. -/
theorem Splits.selects {count : Nat} (h : Splits t.offsets offset count)
    (hsize : 0 < t.offsets.size) : t.Selects offset (count - 1) := by
  have hwithin := h.within
  constructor
  · omega
  · by_cases h0 : count = 0
    · right
      omega
    · left
      exact h.below _ (by omega)
  · intro j hj hinside
    exact h.above j (by omega) hinside

theorem WellFormed.splits (ht : t.WellFormed) (offset : UInt32) :
    Splits t.offsets offset (countUpTo t.offsets offset t.offsets.size 0 t.offsets.size) :=
  splits_countUpTo ht.sorted (by omega) (by omega) (Nat.le_refl _)
    (fun i hi => absurd hi (Nat.not_lt_zero i)) (fun i hi hsize => absurd hsize (by omega))

/-- In a table with entries there is one for every offset. -/
theorem WellFormed.selects (ht : t.WellFormed) (hsize : 0 < t.offsets.size) :
    t.Selects offset (countUpTo t.offsets offset t.offsets.size 0 t.offsets.size - 1) :=
  (ht.splits offset).selects hsize

theorem lineAt?_eq_some_iff (ht : t.WellFormed) :
    t.lineAt? offset = some line ↔
      ∃ index, t.Selects offset index ∧ t.lines[index]? = some line := by
  rw [lineAt?]
  constructor
  · intro h
    have hsize : 0 < t.offsets.size := by
      obtain ⟨hlt, -⟩ := Array.getElem?_eq_some_iff.1 h
      rw [ht.paired] at hlt
      omega
    exact ⟨_, ht.selects hsize, h⟩
  · intro h
    obtain ⟨index, hselects, hline⟩ := h
    have hsize : 0 < t.offsets.size := Nat.zero_lt_of_lt hselects.inside
    rwa [(ht.selects hsize).unique hselects]

/-- Only an empty table has no line. -/
theorem lineAt?_eq_none_iff (ht : t.WellFormed) : t.lineAt? offset = none ↔ t.lines.size = 0 := by
  rw [lineAt?, Array.getElem?_eq_none_iff, ht.paired]
  constructor
  · intro h
    rcases Nat.eq_zero_or_pos t.offsets.size with h0 | hsize
    · exact h0
    · have hselects : t.Selects offset _ := ht.selects hsize
      have hinside := hselects.inside
      omega
  · intro h
    omega

/-! ## Entries at an offset -/

/-- The last entry at the offset has this line. -/
def RecordsLast (t : LineTable) (offset : UInt32) (line : UInt16) : Prop :=
  ∃ index : Nat, t.entries[index]? = some (offset, line) ∧
    ∀ j, index < j → ∀ line', t.entries[j]? ≠ some (offset, line')

theorem getElem?_entries {index : Nat} :
    t.entries[index]? = some (offset, line) ↔
      t.offsets[index]? = some offset ∧ t.lines[index]? = some line := by
  rw [entries, List.getElem?_zip_eq_some, Array.getElem?_toList, Array.getElem?_toList]

theorem RecordsLast.mem (h : t.RecordsLast offset line) : (offset, line) ∈ t.entries := by
  obtain ⟨index, hentry, -⟩ := h
  exact List.mem_of_getElem? hentry

/-- Where no offset is repeated there is one line for it. -/
theorem line_eq_of_nodup (h : t.offsets.toList.Nodup) {line' : UInt16}
    (hline : (offset, line) ∈ t.entries) (hline' : (offset, line') ∈ t.entries) : line = line' := by
  obtain ⟨i, hi⟩ := List.mem_iff_getElem?.1 hline
  obtain ⟨j, hj⟩ := List.mem_iff_getElem?.1 hline'
  obtain ⟨hioffset, hiline⟩ := getElem?_entries.1 hi
  obtain ⟨hjoffset, hjline⟩ := getElem?_entries.1 hj
  have hinside : i < t.offsets.toList.length := (Array.getElem?_eq_some_iff.1 hioffset).1
  have hsame : t.offsets.toList[i]? = t.offsets.toList[j]? := by
    rw [Array.getElem?_toList, Array.getElem?_toList, hioffset, hjoffset]
  obtain rfl : i = j := (List.getElem?_inj hinside h).1 hsame
  exact Option.some.inj (hiline.symm.trans hjline)

theorem size_ne_zero_of_mem {e : UInt32 × UInt16} (h : e ∈ t.entries) : t.lines.size ≠ 0 := by
  intro hempty
  rw [entries, Array.eq_empty_of_size_eq_zero hempty, List.zip_nil_right] at h
  exact List.not_mem_nil h

theorem offset_of_entry {index : Nat} (h : t.entries[index]? = some (offset, line)) :
    index < t.offsets.size ∧ t.offsets.getD index 0 = offset := by
  obtain ⟨hoffset, -⟩ := getElem?_entries.1 h
  refine ⟨(Array.getElem?_eq_some_iff.1 hoffset).1, ?_⟩
  rw [Array.getD_eq_getD_getElem?, hoffset, Option.getD_some]

/-- No entry at the offset comes after the one that is selected. -/
theorem Selects.le_of_entry {index i : Nat} (h : t.Selects offset index)
    (hi : t.entries[i]? = some (offset, line)) : i ≤ index := by
  obtain ⟨hinside, hoffset⟩ := offset_of_entry hi
  refine Nat.le_of_not_lt fun hlt => ?_
  have habove := h.above i hlt hinside
  rw [hoffset] at habove
  exact UInt32.lt_irrefl _ habove

/-- Where a line begins, the entry that is selected is the last one at that offset. -/
theorem Selects.recordsLast {index : Nat} (ht : t.WellFormed) (h : t.Selects offset index)
    (hline : t.lines[index]? = some line) {recorded : UInt16}
    (hrecorded : (offset, recorded) ∈ t.entries) : t.RecordsLast offset line := by
  obtain ⟨i, hi⟩ := List.mem_iff_getElem?.1 hrecorded
  have hle : i ≤ index := h.le_of_entry hi
  -- no offset between the two entries differs, since the later one is not above
  have hsame : t.offsets.getD index 0 = offset := by
    have hbelow := ht.sorted i index hle h.inside
    rw [(offset_of_entry hi).2] at hbelow
    rcases h.reached with hreached | h0
    · exact UInt32.le_antisymm hreached hbelow
    · obtain rfl : i = index := by omega
      exact (offset_of_entry hi).2
  refine ⟨index, getElem?_entries.2 ⟨?_, hline⟩, ?_⟩
  · rw [← hsame, Array.getD_eq_getD_getElem?, Array.getElem?_eq_getElem h.inside, Option.getD_some]
  · intro j hlt line' hj
    exact Nat.not_lt.2 (h.le_of_entry hj) hlt

end CodeView.LineTable
