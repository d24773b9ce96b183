import CodeView.Proofs.LineTable
import CodeView.Proofs.LineTable.Selection
import Mathlib.Order.Bounds.Defs

/-!
# Halving and walking

The halving search of `LineTable.lineAt?` comes to the entry that a walk over the offsets comes to.
Both count the offsets that are not above the given one, and in a sorted table only one number
splits the offsets in this way (`Splits.unique`). What the chosen entry is follows from the split
alone.
-/

namespace CodeView.LineTable

/-- The index at which the search for an offset ends. -/
def selected (t : LineTable) (offset : UInt32) : Nat :=
  countUpTo t.offsets offset t.offsets.size 0 t.offsets.size - 1

/-- What the index chosen for an offset is, in terms of the offsets alone. -/
structure Chosen (t : LineTable) (offset : UInt32) (index : Nat) : Prop where
  /-- where some offset is not above the given one, it is the greatest index of such an offset -/
  greatest : (∃ i < t.offsets.size, t.offsets.getD i 0 ≤ offset) →
    IsGreatest {i | i < t.offsets.size ∧ t.offsets.getD i 0 ≤ offset} index
  /-- among entries that begin at the given offset it is the last -/
  last : ∀ i < t.offsets.size, t.offsets.getD i 0 = offset →
    t.offsets.getD index 0 = offset ∧ i ≤ index
  /-- below the first offset it is the first entry -/
  first : offset < t.offsets.getD 0 0 → index = 0

variable {t : LineTable} {offsets : Array UInt32} {offset offset' : UInt32} {count count' : Nat}

/-! ## The walk -/

/-- The walk stops at an offset that is above the given one, and then all later ones are. -/
theorem splits_takeWhile
    (sorted : ∀ i j, i ≤ j → j < offsets.size → offsets.getD i 0 ≤ offsets.getD j 0) :
    Splits offsets offset (offsets.toList.takeWhile (· ≤ offset)).length := by
  have hlength : (offsets.toList.takeWhile (· ≤ offset)).length =
      offsets.toList.findIdx fun o => !decide (o ≤ offset) := by
    rw [List.takeWhile_eq_take_findIdx_not, List.length_take_of_le List.findIdx_le_length]
  have hgetD : ∀ i (h : i < offsets.toList.length), offsets.getD i 0 = offsets.toList[i] := by
    intro i h
    simp [Array.getD, show i < offsets.size from h]
  rw [hlength]
  refine ⟨List.findIdx_le_length, ?_, ?_⟩
  · intro i hi
    have hinside : i < offsets.toList.length := Nat.lt_of_lt_of_le hi List.findIdx_le_length
    rw [hgetD i hinside]
    simpa using List.not_of_lt_findIdx hi
  · intro i hi hsize
    have hstop : (offsets.toList.findIdx fun o => !decide (o ≤ offset)) < offsets.toList.length :=
      Nat.lt_of_le_of_lt hi hsize
    have habove := List.findIdx_getElem (w := hstop)
    rw [← hgetD _ hstop] at habove
    have hlt : offset < offsets.getD (offsets.toList.findIdx fun o => !decide (o ≤ offset)) 0 := by
      simpa using habove
    exact UInt32.lt_of_lt_of_le hlt (sorted _ i hi hsize)

/-! ## What a split tells -/

namespace Splits

/-- A greater offset has no fewer offsets before its split. -/
theorem mono (h : Splits offsets offset count) (h' : Splits offsets offset' count')
    (hle : offset ≤ offset') : count ≤ count' := by
  refine Nat.le_of_not_lt fun hlt => ?_
  have hbelow := h.below count' hlt
  have habove := h'.above count' (Nat.le_refl _) (Nat.lt_of_lt_of_le hlt h.within)
  exact UInt32.not_lt.2 (UInt32.le_trans hbelow hle) habove

theorem unique (h : Splits offsets offset count) (h' : Splits offsets offset count') :
    count = count' :=
  Nat.le_antisymm (h.mono h' (UInt32.le_refl _)) (h'.mono h (UInt32.le_refl _))

theorem lt_of_le (h : Splits offsets offset count) {i : Nat} (hi : i < offsets.size)
    (hle : offsets.getD i 0 ≤ offset) : i < count :=
  Nat.lt_of_not_le fun hcount => UInt32.not_lt.2 hle (h.above i hcount hi)

/-- The entry before the split is the chosen one. -/
theorem chosen (ht : t.WellFormed) (h : Splits t.offsets offset count) :
    t.Chosen offset (count - 1) := by
  have hwithin := h.within
  constructor
  case greatest =>
    rintro ⟨i, hi, hle⟩
    have hlt := h.lt_of_le hi hle
    refine ⟨⟨by omega, h.below _ (by omega)⟩, ?_⟩
    rintro j ⟨hj, hle'⟩
    exact Nat.le_sub_one_of_lt (h.lt_of_le hj hle')
  case last =>
    intro i hi heq
    have hlt := h.lt_of_le hi (UInt32.le_of_eq heq)
    have hle : i ≤ count - 1 := Nat.le_sub_one_of_lt hlt
    have hbetween := ht.sorted i (count - 1) hle (by omega)
    rw [heq] at hbetween
    exact ⟨UInt32.le_antisymm (h.below _ (by omega)) hbetween, hle⟩
  case first =>
    intro habove
    refine Nat.sub_eq_zero_of_le (Nat.le_of_not_lt fun hlt => ?_)
    exact UInt32.not_lt.2 (h.below 0 (by omega)) habove

end Splits

/-- Both searches look at the same entry. -/
theorem WellFormed.lineAt?_eq_scanLine? (ht : t.WellFormed) (offset : UInt32) :
    t.lineAt? offset = t.scanLine? offset := by
  rw [lineAt?, scanLine?, (ht.splits offset).unique (splits_takeWhile ht.sorted)]

/-- **Halving finds what walking finds.** In every table that can be made, and for every offset,
also one outside the range of the table, the line is that of a walk over the offsets. It is the line
of the entry that `Chosen` describes, only an empty table has none, and the entry never moves back
as the offset grows. -/
theorem lineAt?_of_ofParts {segment : UInt16} {first last : UInt32} {offsets : Array UInt32}
    {lines : Array UInt16} {t : LineTable} (h : ofParts segment first last offsets lines = .ok t)
    (offset : UInt32) :
    t.lineAt? offset = t.scanLine? offset ∧
      t.lineAt? offset = t.lines[t.selected offset]? ∧
      t.Chosen offset (t.selected offset) ∧
      (t.lineAt? offset = none ↔ t.lines = #[]) ∧
      ∀ offset', offset ≤ offset' → t.selected offset ≤ t.selected offset' := by
  have ht : t.WellFormed := by
    obtain ⟨ht, rfl⟩ := ofParts_eq_ok.1 h
    exact ht
  refine ⟨ht.lineAt?_eq_scanLine? offset, rfl, (ht.splits offset).chosen ht, ?_, ?_⟩
  · rw [lineAt?_eq_none_iff ht, Array.size_eq_zero_iff]
  · intro offset' hle
    exact Nat.sub_le_sub_right ((ht.splits offset).mono (ht.splits offset') hle) 1

/-- A table that repeats an offset. -/
def repeatedTable : LineTable :=
  ⟨1, 100, 300, #[100, 200, 200, 250], #[1, 2, 3, 4]⟩

theorem lineAt?_of_ofParts_repeatedTable :
    ofParts 1 100 300 #[100, 200, 200, 250] #[1, 2, 3, 4] = .ok repeatedTable ∧
      repeatedTable.scanLine? 249 = some 3 ∧
      IsGreatest {i | i < 4 ∧ repeatedTable.offsets.getD i 0 ≤ 249} 2 ∧
      repeatedTable.selected 249 ≤ repeatedTable.selected 4294967295 := by
  have made : ofParts 1 100 300 #[100, 200, 200, 250] #[1, 2, 3, 4] = .ok repeatedTable :=
    ofParts_eq_ok.2 ⟨by decide +kernel, rfl⟩
  obtain ⟨scan, -, chosen, -, mono⟩ := lineAt?_of_ofParts made 249
  exact ⟨made, scan.symm, chosen.greatest ⟨0, by decide, by decide⟩, mono _ (by decide)⟩

end CodeView.LineTable
