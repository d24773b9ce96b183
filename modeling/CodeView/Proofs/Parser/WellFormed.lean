import CodeView.Proofs.LineTable.Selection
import CodeView.Proofs.Parser.Growth
import CodeView.Proofs.SourceModule.WellFormed

/-!
# Every line table is well formed

A line table is made in one place, where its parts are checked, so those of a parse result are as
well formed as those that are put together by hand (`LineTable.wellFormed_of_made`). That is what
its questions rely on: `LineTable.Answers` says that each of them has the answer that the entries
give.
-/

namespace CodeView

namespace LineTable

/-- Every question has the answer that the entries give. -/
structure Answers (t : LineTable) : Prop where
  /-- where a line is found there is an offset -/
  indexed : ∀ line index, t.lines.idxOf? line = some index → index < t.offsets.size
  offsetOf : ∀ line, t.offsetOf? line = none ↔ line ∉ t.lines
  /-- the entries leave out no offset and no line -/
  offsets : t.entries.map (·.1) = t.offsets.toList
  lines : t.entries.map (·.2) = t.lines.toList
  /-- only an empty table has no line for an offset -/
  lineAt : ∀ offset, t.lineAt? offset = none ↔ t.lines = #[]

theorem index_lt_of_idxOf? {lines : Array UInt16} {line : UInt16} {index : Nat}
    (h : lines.idxOf? line = some index) : index < lines.size := by
  obtain ⟨lines⟩ := lines
  rw [List.idxOf?_toArray, List.idxOf?_eq_some_iff] at h
  obtain ⟨hlt, -⟩ := h
  exact hlt

namespace WellFormed

variable {t : LineTable}

theorem index_lt (ht : t.WellFormed) {line : UInt16} {index : Nat}
    (h : t.lines.idxOf? line = some index) : index < t.offsets.size := by
  rw [← ht.paired]
  exact index_lt_of_idxOf? h

theorem offsetOf?_eq_none_iff_not_mem (ht : t.WellFormed) (line : UInt16) :
    t.offsetOf? line = none ↔ line ∉ t.lines := by
  rw [← Array.idxOf?_eq_none_iff, offsetOf?, Option.bind_eq_none_iff]
  constructor
  · intro h
    cases hindex : t.lines.idxOf? line with
    | none => rfl
    | some index =>
      -- a line that is found has an offset, so the look-up would have given it
      have hoffset := h index hindex
      rw [Array.getElem?_eq_getElem (ht.index_lt hindex)] at hoffset
      cases hoffset
  · intro h index hindex
    rw [h] at hindex
    cases hindex

theorem answers (ht : t.WellFormed) : t.Answers where
  indexed _ _ h := ht.index_lt h
  offsetOf := ht.offsetOf?_eq_none_iff_not_mem
  offsets := List.map_fst_zip (Nat.le_of_eq ht.paired.symm)
  lines := List.map_snd_zip (Nat.le_of_eq ht.paired)
  lineAt _ := by rw [lineAt?_eq_none_iff ht, Array.size_eq_zero_iff]

end WellFormed

end LineTable

namespace Parser

variable {p : Parser} {source : ByteArray} {base : Nat}

/-- Each source module of a result has been read from the bytes that its entry declares. -/
theorem wellFormed_of_parse {info : DebugInfo} (h : p.parse source base = .ok info)
    {m : SourceModule} (hm : m ∈ info.sourceModules) : m.WellFormed := by
  obtain ⟨s, hs, hrecord⟩ := DebugInfo.mem_sourceModules.1 hm
  obtain ⟨signature, rfl⟩ := eq_ofOutcomes_of_parse rfl (parse_lenient_of_ok h)
  have hdecodes := decodes_of_mem_subsections hs
  rw [hrecord] at hdecodes
  cases hdecodes with
  | decoded _ _ _ hread =>
    exact SourceModule.wellFormed_of_read (Decoder.sourceModule_of_read hread)

end Parser

/-- **No line table is malformed.** Those of a parse result, in either mode, and those that are made
of their parts have as many lines as offsets, a range that does not end before it begins, and
offsets that never decrease. No table like that is refused, and every question about it has the
answer that its entries give. -/
theorem LineTable.wellFormed_of_made :
    (∀ (p : Parser) source base info, p.parse source base = .ok info →
      ∀ m ∈ info.sourceModules, ∀ file ∈ m.files, ∀ t ∈ file.tables, t.WellFormed) ∧
    (∀ segment first last offsets lines t, ofParts segment first last offsets lines = .ok t →
      t.WellFormed ∧ t = ⟨segment, first, last, offsets, lines⟩) ∧
    (∀ t : LineTable, t.WellFormed →
      ofParts t.segment t.first t.last t.offsets t.lines = .ok t) ∧
    ∀ t : LineTable, t.WellFormed → t.Answers := by
  refine ⟨?_, ?_, ?_, fun t ht => ht.answers⟩
  · intro p source base info h m hm
    exact Parser.wellFormed_of_parse h hm
  · intro segment first last offsets lines t h
    obtain ⟨hwell, rfl⟩ := ofParts_eq_ok.1 h
    exact ⟨hwell, rfl⟩
  · intro t ht
    exact ofParts_eq_ok.2 ⟨ht, rfl⟩

end CodeView
