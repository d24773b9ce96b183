import CodeView.LineTable

/-!
# Checked line tables

`LineTable.ofParts` makes a line table from exactly the parts that are well formed together. What
it reports about others is wrong with them, and names no position.
-/

namespace CodeView.LineTable

/-- No offset is smaller than the one before it exactly if the offsets never decrease. -/
theorem firstDecrease?_eq_none {offsets : Array UInt32} :
    firstDecrease? offsets = none ↔
      ∀ i j, i ≤ j → j < offsets.size → offsets.getD i 0 ≤ offsets.getD j 0 := by
  have step : firstDecrease? offsets = none ↔
      ∀ i, i + 1 < offsets.size → offsets.getD i 0 ≤ offsets.getD (i + 1) 0 := by
    simp only [firstDecrease?, Option.map_eq_none_iff, List.find?_eq_none, List.mem_range,
      decide_eq_true_eq, UInt32.not_lt]
    constructor
    · intro h i hi
      exact h i (by omega)
    · intro h i hi
      exact h i (by omega)
  rw [step]
  constructor
  · intro h i j hij
    induction hij with
    | refl => exact fun _ => UInt32.le_refl _
    | step _ ih =>
      intro hj
      exact UInt32.le_trans (ih (by omega)) (h _ hj)
  · intro h i hi
    exact h i (i + 1) (by omega) hi

/-- The first decrease is one, and no offset before it is smaller than the one before. -/
theorem decrease_of_firstDecrease? {offsets : Array UInt32} {index : Nat}
    (h : firstDecrease? offsets = some index) :
    1 ≤ index ∧ index < offsets.size ∧ offsets.getD index 0 < offsets.getD (index - 1) 0 ∧
      ∀ k, k + 1 < index → offsets.getD k 0 ≤ offsets.getD (k + 1) 0 := by
  rw [firstDecrease?, Option.map_eq_some_iff] at h
  obtain ⟨i, hfind, rfl⟩ := h
  rw [List.find?_range_eq_some] at hfind
  obtain ⟨hdecrease, hi, hbefore⟩ := hfind
  rw [List.mem_range] at hi
  refine ⟨Nat.le_add_left 1 i, by omega, of_decide_eq_true hdecrease, ?_⟩
  intro k hk
  simpa using hbefore k (by omega)

instance (t : LineTable) : Decidable t.WellFormed :=
  decidable_of_iff (t.lines.size = t.offsets.size ∧ t.first ≤ t.last ∧
      firstDecrease? t.offsets = none)
    ⟨fun ⟨paired, ordered, sorted⟩ => ⟨paired, ordered, firstDecrease?_eq_none.1 sorted⟩,
      fun h => ⟨h.paired, h.ordered, firstDecrease?_eq_none.2 h.sorted⟩⟩

theorem ofParts_eq_ok {segment : UInt16} {first last : UInt32} {offsets : Array UInt32}
    {lines : Array UInt16} {t : LineTable} :
    ofParts segment first last offsets lines = .ok t ↔
      WellFormed ⟨segment, first, last, offsets, lines⟩ ∧
        t = ⟨segment, first, last, offsets, lines⟩ := by
  unfold ofParts
  constructor
  · intro h
    split at h
    case isTrue => cases h
    case isFalse hpaired =>
      split at h
      case isTrue => cases h
      case isFalse hordered =>
        cases hsorted : firstDecrease? offsets with
        | some index =>
          rw [hsorted] at h
          cases h
        | none =>
          rw [hsorted] at h
          cases h
          refine ⟨⟨?_, ?_, firstDecrease?_eq_none.1 hsorted⟩, rfl⟩
          · exact (Decidable.not_not.1 hpaired).symm
          · exact UInt32.not_lt.1 hordered
  · intro h
    obtain ⟨h, rfl⟩ := h
    have hpaired : ¬ offsets.size ≠ lines.size := fun hne => hne h.paired.symm
    have hordered : ¬ last < first := UInt32.not_lt.2 h.ordered
    rw [if_neg hpaired, if_neg hordered, firstDecrease?_eq_none.2 h.sorted]

/-- Paired parts are refused for a range or for offsets that are wrong. -/
theorem error_of_ofParts {segment : UInt16} {first last : UInt32} {offsets : Array UInt32}
    {lines : Array UInt16} {e : FormatError} (hpaired : offsets.size = lines.size)
    (h : ofParts segment first last offsets lines = .error e) :
    (last < first ∧ e = .invertedRange segment first last) ∨
      ∃ index, firstDecrease? offsets = some index ∧ e = .nonMonotonicOffsets segment index := by
  unfold ofParts at h
  rw [if_neg (Decidable.not_not.2 hpaired)] at h
  split at h
  case isTrue hinverted =>
    cases h
    exact .inl ⟨hinverted, rfl⟩
  case isFalse =>
    cases hsorted : firstDecrease? offsets with
    | some index =>
      rw [hsorted] at h
      cases h
      exact .inr ⟨index, rfl, rfl⟩
    | none =>
      rw [hsorted] at h
      cases h

theorem shift_of_ofParts {segment : UInt16} {first last : UInt32} {offsets : Array UInt32}
    {lines : Array UInt16} {e : FormatError}
    (h : ofParts segment first last offsets lines = .error e) (distance : Nat) :
    e.shift distance = e := by
  unfold ofParts at h
  split at h
  case isTrue =>
    cases h
    rfl
  case isFalse =>
    split at h
    case isTrue =>
      cases h
      rfl
    case isFalse =>
      cases hsorted : firstDecrease? offsets with
      | some index =>
        rw [hsorted] at h
        cases h
        rfl
      | none =>
        rw [hsorted] at h
        cases h

end CodeView.LineTable
