import CodeView.Proofs.LineTable.Selection
import CodeView.Proofs.Search
import CodeView.Proofs.SourceModule.WellFormed
import CodeView.Resolver

/-!
# Which line table answers

A code offset is answered by the first line table that covers it, in the order of modules, of the
files of a module and of the tables of a file. `Resolver.resolveAddress_first` says so by the
places of the tables; empty tables are passed over.
-/

namespace CodeView

/-- The table has entries, and the offset lies in its range. -/
structure LineTable.Covers (t : LineTable) (offset : UInt32) : Prop where
  nonempty : t.lines.size ≠ 0
  first_le : t.first ≤ offset
  le_last : offset ≤ t.last

namespace Resolver

/-- Where a line table stands: the numbers of its module, of its file in the module and of the
table in the file. -/
structure Place where
  moduleNo : Nat
  fileNo : Nat
  tableNo : Nat
  deriving DecidableEq, Repr

/-- The order in which places are visited. -/
def Place.Before (p q : Place) : Prop :=
  p.moduleNo < q.moduleNo ∨ p.moduleNo = q.moduleNo ∧
    (p.fileNo < q.fileNo ∨ p.fileNo = q.fileNo ∧ p.tableNo < q.tableNo)

/-- The file and the line table that stand at a place. -/
def At (r : Resolver) (p : Place) (file : SourceFile) (table : LineTable) : Prop :=
  ∃ m, r.modules[p.moduleNo]? = some m ∧ m.files[p.fileNo]? = some file ∧
    file.tables[p.tableNo]? = some table

/-- The table at a place covers the offset, and none before it does. -/
structure FirstCovering (r : Resolver) (offset : UInt32) (p : Place) (file : SourceFile)
    (table : LineTable) : Prop where
  at_place : r.At p file table
  covers : table.Covers offset
  first : ∀ q file' table', q.Before p → r.At q file' table' → ¬ table'.Covers offset

/-- The location that the table of a file has for an offset. -/
def LocatedIn (file : SourceFile) (table : LineTable) (offset : UInt32) (l : Location) : Prop :=
  ∃ index line, table.Selects offset index ∧ table.lines[index]? = some line ∧
    l = ⟨file.name, line, table.segment⟩

/-! ## One line table -/

section Table

variable {file : SourceFile} {t : LineTable} {offset : UInt32}

theorem contains_iff : t.contains offset ↔ t.first ≤ offset ∧ offset ≤ t.last := by
  simp [LineTable.contains]

theorem locate?_eq_none_iff (ht : t.WellFormed) :
    locate? file offset t = none ↔ ¬ t.Covers offset := by
  unfold locate?
  by_cases hcontains : t.contains offset = true
  · rw [if_pos hcontains, Option.map_eq_none_iff, LineTable.lineAt?_eq_none_iff ht]
    obtain ⟨hfirst, hlast⟩ := contains_iff.1 hcontains
    constructor
    · intro hempty hcovers
      exact hcovers.nonempty hempty
    · intro hcovers
      exact Decidable.of_not_not fun hnonempty => hcovers ⟨hnonempty, hfirst, hlast⟩
  · rw [if_neg hcontains]
    simp only [true_iff]
    intro hcovers
    exact hcontains (contains_iff.2 ⟨hcovers.first_le, hcovers.le_last⟩)

theorem locate?_eq_some_iff (ht : t.WellFormed) {l : Location} :
    locate? file offset t = some l ↔ t.Covers offset ∧ LocatedIn file t offset l := by
  constructor
  · intro h
    have hcovers : t.Covers offset := by
      by_cases hcovers : t.Covers offset
      · exact hcovers
      · rw [(locate?_eq_none_iff ht).2 hcovers] at h
        cases h
    have hcontains : t.contains offset = true :=
      contains_iff.2 ⟨hcovers.first_le, hcovers.le_last⟩
    rw [locate?, if_pos hcontains, Option.map_eq_some_iff] at h
    obtain ⟨line, hline, rfl⟩ := h
    obtain ⟨index, hselects, hline⟩ := (LineTable.lineAt?_eq_some_iff ht).1 hline
    exact ⟨hcovers, index, line, hselects, hline, rfl⟩
  · intro h
    obtain ⟨hcovers, index, line, hselects, hline, rfl⟩ := h
    have hcontains : t.contains offset = true :=
      contains_iff.2 ⟨hcovers.first_le, hcovers.le_last⟩
    have hlineAt := (LineTable.lineAt?_eq_some_iff ht).2 ⟨index, hselects, hline⟩
    rw [locate?, if_pos hcontains, hlineAt, Option.map_some]

end Table

/-! ## All line tables -/

variable {r : Resolver} {offset : UInt32}

theorem resolveAddress_eq (r : Resolver) (offset : UInt32) :
    r.resolveAddress offset = r.modules.findSome? fun m =>
      m.files.findSome? fun file => file.tables.findSome? (locate? file offset) := by
  rw [resolveAddress, files, findSome?_flatMap]

theorem mem_of_at {p : Place} {file : SourceFile} {t : LineTable} (h : r.At p file t) :
    ∃ m ∈ r.modules, file ∈ m.files ∧ t ∈ file.tables := by
  obtain ⟨m, hm, hfile, ht⟩ := h
  exact ⟨m, List.mem_of_getElem? hm, List.mem_of_getElem? hfile, List.mem_of_getElem? ht⟩

theorem wellFormed_of_at (hr : ∀ m ∈ r.modules, m.WellFormed) {p : Place} {file : SourceFile}
    {t : LineTable} (h : r.At p file t) : t.WellFormed := by
  obtain ⟨m, hm, hfile, ht⟩ := mem_of_at h
  exact hr m hm file hfile t ht

theorem exists_at {m : SourceModule} {file : SourceFile} {t : LineTable} (hm : m ∈ r.modules)
    (hfile : file ∈ m.files) (ht : t ∈ file.tables) : ∃ p, r.At p file t := by
  obtain ⟨i, hi⟩ := List.mem_iff_getElem?.1 hm
  obtain ⟨j, hj⟩ := List.mem_iff_getElem?.1 hfile
  obtain ⟨k, hk⟩ := List.mem_iff_getElem?.1 ht
  exact ⟨⟨i, j, k⟩, m, hi, hj, hk⟩

theorem resolveAddress_eq_none_iff (hr : ∀ m ∈ r.modules, m.WellFormed) :
    r.resolveAddress offset = none ↔ ∀ p file t, r.At p file t → ¬ t.Covers offset := by
  simp only [resolveAddress_eq, List.findSome?_eq_none_iff]
  constructor
  · intro h p file t hat
    obtain ⟨m, hm, hfile, ht⟩ := mem_of_at hat
    exact (locate?_eq_none_iff (wellFormed_of_at hr hat)).1 (h m hm file hfile t ht)
  · intro h m hm file hfile t ht
    obtain ⟨p, hat⟩ := exists_at hm hfile ht
    exact (locate?_eq_none_iff (wellFormed_of_at hr hat)).2 (h p file t hat)

theorem resolveAddress_eq_some_iff (hr : ∀ m ∈ r.modules, m.WellFormed) {l : Location} :
    r.resolveAddress offset = some l ↔
      ∃ p file t, r.FirstCovering offset p file t ∧ LocatedIn file t offset l := by
  simp only [resolveAddress_eq, findSome?_eq_some_iff_index, List.findSome?_eq_none_iff]
  constructor
  · intro h
    obtain ⟨i, m, hm, ⟨j, file, hfile, ⟨k, t, ht, hfound, htables⟩, hfiles⟩, hmodules⟩ := h
    have hat : r.At ⟨i, j, k⟩ file t := ⟨m, hm, hfile, ht⟩
    obtain ⟨hcovers, hlocated⟩ := (locate?_eq_some_iff (wellFormed_of_at hr hat)).1 hfound
    refine ⟨⟨i, j, k⟩, file, t, ⟨hat, hcovers, ?_⟩, hlocated⟩
    intro q file' t' hbefore hat'
    have hwell : t'.WellFormed := wellFormed_of_at hr hat'
    obtain ⟨m', hm', hfile', ht'⟩ := hat'
    suffices hmissed : locate? file' offset t' = none from (locate?_eq_none_iff hwell).1 hmissed
    -- an earlier place is in an earlier module, or in an earlier file, or further up in the file
    rcases hbefore with hlt | ⟨rfl, hlt | ⟨rfl, hlt⟩⟩
    · exact hmodules _ hlt m' hm' file' (List.mem_of_getElem? hfile') t' (List.mem_of_getElem? ht')
    · obtain rfl : m = m' := Option.some.inj (hm.symm.trans hm')
      exact hfiles _ hlt file' hfile' t' (List.mem_of_getElem? ht')
    · obtain rfl : m = m' := Option.some.inj (hm.symm.trans hm')
      obtain rfl : file = file' := Option.some.inj (hfile.symm.trans hfile')
      exact htables _ hlt t' ht'
  · intro h
    obtain ⟨⟨i, j, k⟩, file, t, ⟨hat, hcovers, hfirst⟩, hlocated⟩ := h
    have hnone : ∀ q file' t', q.Before ⟨i, j, k⟩ → r.At q file' t' →
        locate? file' offset t' = none := by
      intro q file' t' hbefore hat'
      obtain ⟨m', hm', hfile', ht'⟩ := mem_of_at hat'
      exact (locate?_eq_none_iff (hr m' hm' file' hfile' t' ht')).2
        (hfirst q file' t' hbefore hat')
    have hwell : t.WellFormed := by
      obtain ⟨m', hm', hfile', ht'⟩ := mem_of_at hat
      exact hr m' hm' file hfile' t ht'
    obtain ⟨m, hm, hfile, ht⟩ := hat
    refine ⟨i, m, hm, ⟨j, file, hfile, ⟨k, t, ht, ?_, ?_⟩, ?_⟩, ?_⟩
    · exact (locate?_eq_some_iff hwell).2 ⟨hcovers, hlocated⟩
    · intro k' hlt t' ht'
      exact hnone ⟨i, j, k'⟩ file t' (.inr ⟨rfl, .inr ⟨rfl, hlt⟩⟩) ⟨m, hm, hfile, ht'⟩
    · intro j' hlt file' hfile' t' ht'
      obtain ⟨k', hk'⟩ := List.mem_iff_getElem?.1 ht'
      exact hnone ⟨i, j', k'⟩ file' t' (.inr ⟨rfl, .inl hlt⟩) ⟨m, hm, hfile', hk'⟩
    · intro i' hlt m' hm' file' hfile' t' ht'
      obtain ⟨j', hj'⟩ := List.mem_iff_getElem?.1 hfile'
      obtain ⟨k', hk'⟩ := List.mem_iff_getElem?.1 ht'
      exact hnone ⟨i', j', k'⟩ file' t' (.inl hlt) ⟨m', hm', hj', hk'⟩

/-- Modules may be searched in two parts, the second after a miss in the first. -/
theorem resolveAddress_append (first second : List SourceModule) (offset : UInt32) :
    (ofModules (first ++ second)).resolveAddress offset =
      ((ofModules first).resolveAddress offset).or
        ((ofModules second).resolveAddress offset) := by
  simp only [resolveAddress_eq, ofModules, List.findSome?_append]

/-- **The first line table that covers an offset answers.** Nothing is found if none covers it, and
the answer of the first is the line of the entry that it selects. -/
theorem resolveAddress_first (modules : List SourceModule) (hmodules : ∀ m ∈ modules, m.WellFormed)
    (offset : UInt32) :
    ((ofModules modules).resolveAddress offset = none ↔
      ∀ p file t, (ofModules modules).At p file t → ¬ t.Covers offset) ∧
    (∀ l, (ofModules modules).resolveAddress offset = some l ↔
      ∃ p file t, (ofModules modules).FirstCovering offset p file t ∧
        ∃ index line, t.Selects offset index ∧ t.lines[index]? = some line ∧
          l = ⟨file.name, line, t.segment⟩) ∧
    (∀ first second, modules = first ++ second →
      (ofModules modules).resolveAddress offset =
        ((ofModules first).resolveAddress offset).or
          ((ofModules second).resolveAddress offset)) := by
  refine ⟨resolveAddress_eq_none_iff hmodules, fun l => resolveAddress_eq_some_iff hmodules, ?_⟩
  rintro first second rfl
  exact resolveAddress_append first second offset

/-- An empty table, one that repeats an offset, and one of a later module; their ranges overlap. -/
def overlapping : List SourceModule :=
  [⟨[], [⟨"a.c", [⟨1, 256, 511, #[], #[]⟩]⟩,
      ⟨"b.c", [⟨2, 256, 511, #[300, 300, 400], #[7, 8, 9]⟩]⟩]⟩,
    ⟨[], [⟨"c.c", [⟨3, 0, 4095, #[0], #[1]⟩]⟩]⟩]

theorem resolveAddress_first_overlapping :
    (∀ m ∈ overlapping, m.WellFormed) ∧
      (∀ p file t, (ofModules overlapping).At p file t → ¬ t.Covers 5000) ∧
      ∃ p file t, (ofModules overlapping).FirstCovering 399 p file t ∧
        ∃ index line, t.Selects 399 index ∧ t.lines[index]? = some line ∧
          (⟨"b.c", 8, 2⟩ : Location) = ⟨file.name, line, t.segment⟩ := by
  have wellFormed : ∀ m ∈ overlapping, m.WellFormed := by decide +kernel
  have missed : (ofModules overlapping).resolveAddress 5000 = none := by decide +kernel
  have found : (ofModules overlapping).resolveAddress 399 = some ⟨"b.c", 8, 2⟩ := by
    decide +kernel
  refine ⟨wellFormed, ?_, ?_⟩
  · exact (resolveAddress_first overlapping wellFormed 5000).1.1 missed
  · exact ((resolveAddress_first overlapping wellFormed 399).2.1 _).1 found

end Resolver

end CodeView
