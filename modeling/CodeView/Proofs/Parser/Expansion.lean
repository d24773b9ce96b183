import Mathlib.Algebra.BigOperators.Group.Finset.Piecewise
import Mathlib.Algebra.BigOperators.Ring.List
import Mathlib.Algebra.Ring.Nat
import Mathlib.Algebra.Order.BigOperators.Group.Finset
import Mathlib.Order.Interval.Finset.Nat
import CodeView.Executable
import CodeView.Proofs.Defect
import CodeView.Proofs.Parser.Growth
import CodeView.Proofs.Reading.Taken
import CodeView.Proofs.SourceModule.Acceptance

/-!
# How large a result may be

Every pair of offset and line that is decoded stands in six bytes of the source. Offsets may lead to
one line table several times, and so may directory entries, so these bytes need not be different
ones. `Parser.six_mul_pairCount_le` bounds the number of pairs by the size of the source times the
number of tables that share a byte; without sharing it is the size of the source alone.
-/

namespace CodeView

/-! ## Spans -/

/-- Consecutive bytes of a source. -/
structure Span where
  first : Nat
  length : Nat

namespace Span

/-- Whether a byte belongs to a span. -/
def covers (s : Span) (i : Nat) : Bool :=
  s.first ≤ i && i < s.first + s.length

/-- Number of spans that a byte belongs to. -/
def depth (spans : List Span) (i : Nat) : Nat :=
  spans.countP (·.covers i)

variable {size bound : Nat} {spans : List Span}

theorem sum_covers {s : Span} (h : s.first + s.length ≤ size) :
    (∑ i ∈ Finset.range size, if s.covers i then 1 else 0) = s.length := by
  have hbytes : (Finset.range size).filter (fun i => s.covers i) =
      Finset.Ico s.first (s.first + s.length) := by
    ext i
    simp only [covers, Finset.mem_filter, Finset.mem_range, Finset.mem_Ico, Bool.and_eq_true,
      decide_eq_true_eq]
    omega
  rw [← Finset.card_filter, hbytes, Nat.card_Ico]
  omega

/-- Counted byte by byte, the spans come to their lengths. -/
theorem sum_depth (h : ∀ s ∈ spans, s.first + s.length ≤ size) :
    ∑ i ∈ Finset.range size, depth spans i = (spans.map length).sum := by
  induction spans with
  | nil => simp [depth]
  | cons s rest ih =>
    rw [List.forall_mem_cons] at h
    simp only [depth, List.countP_cons, List.map_cons, List.sum_cons, Finset.sum_add_distrib]
    rw [sum_covers h.1, Nat.add_comm]
    congr 1
    exact ih h.2

theorem sum_length_le (h : ∀ s ∈ spans, s.first + s.length ≤ size)
    (hdepth : ∀ i < size, depth spans i ≤ bound) : (spans.map length).sum ≤ bound * size := by
  calc (spans.map length).sum
    _ = ∑ i ∈ Finset.range size, depth spans i := (sum_depth h).symm
    _ ≤ ∑ _i ∈ Finset.range size, bound :=
      Finset.sum_le_sum fun i hi => hdepth i (Finset.mem_range.1 hi)
    _ = bound * size := by
      rw [Finset.sum_const_nat fun _ _ => rfl, Finset.card_range, Nat.mul_comm]

end Span

/-! ## Tables and their spans -/

/-- The pairs of a line table as they are stored: the offsets, and behind them the lines. -/
def LineTable.pairBytes (t : LineTable) : List UInt8 :=
  t.offsets.toList.flatMap wordBytes ++ t.lines.toList.flatMap wordBytes

/-- The bytes of the span are the pairs of the line table, six bytes for each of them. -/
structure Span.Pays (source : ByteArray) (s : Span) (t : LineTable) : Prop where
  length : s.length = 6 * t.entries.length
  bytes : bytesAt source s.first s.length = t.pairBytes

theorem forall₂_flatMap {α β γ : Type} {R : β → γ → Prop} {f : α → List β} {g : α → List γ}
    {items : List α} (h : ∀ a ∈ items, List.Forall₂ R (f a) (g a)) :
    List.Forall₂ R (items.flatMap f) (items.flatMap g) := by
  induction items with
  | nil => exact .nil
  | cons a rest ih =>
    rw [List.forall_mem_cons] at h
    exact List.rel_append h.1 (ih h.2)

/-! ## One record -/

namespace SourceModule

/-- Where the pairs of line table `j` of file `i` of the record at a position lie. -/
def pairSpan (source : ByteArray) (base i j : Nat) : Span :=
  ⟨linePlace source base i j + 4, 6 * LineTable.pairsAt source (linePlace source base i j)⟩

/-- Where the pairs of all line tables of the record at a position lie. A table to which several
offsets lead is listed as often. -/
def pairSpans (source : ByteArray) (base : Nat) : List Span :=
  (List.range (fileCountAt source base)).flatMap fun i =>
    (List.range (SourceFile.countAt source (filePlace source base i))).map
      (pairSpan source base i)

/-- The line tables of all files. -/
def tables (m : SourceModule) : List LineTable :=
  m.files.flatMap (·.tables)

variable {c c' : Cursor} {m : SourceModule}

/-- The files that are read are the stored ones, and they fit. -/
theorem files_of_read (hc : c.Addressable) (h : read c = .ok m c') :
    (∀ i < fileCountAt c.source c.pos,
      SourceFile.Fits c.source c.pos c.limit (filePlace c.source c.pos i)) ∧
      m.files = (stored c.source c.pos).files := by
  obtain ⟨⟨-, -, hfits⟩, rfl⟩ := (read_ok_iff_fits hc m).1 ⟨c', h⟩
  exact ⟨hfits, rfl⟩

/-- The pairs of a stored line table are the bytes behind its head. -/
theorem pays_stored (source : ByteArray) (base i j : Nat) (range : UInt32 × UInt32) :
    (pairSpan source base i j).Pays source
      (LineTable.stored source (linePlace source base i j) range) := by
  constructor
  · simp [LineTable.entries, LineTable.stored, pairSpan]
  · have hoffsets := Read.flatMap_wordBytes_wordAt (α := UInt32) source
      (linePlace source base i j + 4) (LineTable.pairsAt source (linePlace source base i j))
    have hlines := Read.flatMap_wordBytes_wordAt (α := UInt16) source
      (linePlace source base i j + 4 + LineTable.pairsAt source (linePlace source base i j) * 4)
      (LineTable.pairsAt source (linePlace source base i j))
    rw [width_uint32] at hoffsets
    rw [width_uint16] at hlines
    show bytesAt source (linePlace source base i j + 4)
      (6 * LineTable.pairsAt source (linePlace source base i j)) = _
    rw [LineTable.pairBytes, LineTable.stored, hoffsets, hlines, ← bytesAt_add]
    congr 1
    omega

/-- Every line table that is read stands in its span. -/
theorem tables_of_read (hc : c.Addressable) (h : read c = .ok m c') :
    List.Forall₂ (fun t s => Span.Pays c.source s t) m.tables (pairSpans c.source c.pos) ∧
      ∀ s ∈ pairSpans c.source c.pos, s.first + s.length ≤ c.limit := by
  obtain ⟨hfits, hfiles⟩ := files_of_read hc h
  constructor
  · rw [tables, hfiles, stored, pairSpans, List.flatMap_map]
    refine forall₂_flatMap fun i _ => ?_
    rw [SourceFile.stored, List.forall₂_map_left_iff, List.forall₂_map_right_iff,
      List.forall₂_same]
    exact fun j _ => pays_stored c.source c.pos i j _
  · intro s hs
    simp only [pairSpans, List.mem_flatMap, List.mem_map, List.mem_range] at hs
    obtain ⟨i, hi, j, hj, rfl⟩ := hs
    exact ((hfits i hi).tables j hj).pairs

end SourceModule

/-! ## One result -/

namespace Subsection

/-- The line tables of the record, if it is a source module. -/
def tables (s : Subsection) : List LineTable :=
  s.record.sourceModule?.elim [] SourceModule.tables

/-- Where the pairs of these line tables lie, in a blob with the given base. -/
def pairSpans (source : ByteArray) (base : Nat) (s : Subsection) : List Span :=
  s.record.sourceModule?.elim [] fun _ =>
    SourceModule.pairSpans source (base + s.entry.offset.toNat)

theorem tables_of_decodes {r : Registry} {source : ByteArray} {base : Nat} {s : Subsection}
    (hsize : source.size ≤ Cursor.maxPosition) (h : r.Decodes source base s.entry s.record) :
    List.Forall₂ (fun t span => Span.Pays source span t) s.tables (s.pairSpans source base) ∧
      ∀ span ∈ s.pairSpans source base, span.first + span.length ≤ source.size := by
  rw [tables, pairSpans]
  cases hmodule : s.record.sourceModule? with
  | none => simp
  | some m =>
    rw [Record.sourceModule?_eq_some_iff.1 hmodule] at h
    cases h with
    | decoded _ hplace hfits hread =>
      obtain ⟨hpaid, hwithin⟩ := SourceModule.tables_of_read
        ⟨⟨Nat.le_refl _, Nat.le_add_right _ _, hfits⟩, hsize⟩ (Decoder.sourceModule_of_read hread)
      rw [hplace] at hpaid hwithin hfits
      exact ⟨hpaid, fun span hspan => Nat.le_trans (hwithin span hspan) hfits⟩

end Subsection

namespace DebugInfo

/-- The line tables of all source modules. -/
def tables (info : DebugInfo) : List LineTable :=
  info.files.flatMap (·.tables)

/-- Number of pairs of offset and line in all line tables. -/
def pairCount (info : DebugInfo) : Nat :=
  (info.tables.map fun t => t.entries.length).sum

/-- Where the pairs of all line tables lie, in the order of the tables. -/
def pairSpans (info : DebugInfo) (source : ByteArray) : List Span :=
  info.subsections.flatMap (Subsection.pairSpans source info.base)

theorem tables_eq_flatMap (info : DebugInfo) :
    info.tables = info.subsections.flatMap (·.tables) := by
  rw [tables, files, sourceModules, records, List.filterMap_map, Parser.flatMap_filterMap,
    List.flatMap_assoc]
  congr 1
  funext s
  rw [Function.comp_apply, Subsection.tables]
  cases s.record.sourceModule? with
  | none => rfl
  | some m => rfl

/-- Six bytes for each pair of each line table. -/
structure Paid (info : DebugInfo) (source : ByteArray) : Prop where
  /-- every table has a span, whose bytes are its pairs -/
  tables : List.Forall₂ (fun t span => Span.Pays source span t) info.tables
    (info.pairSpans source)
  within : ∀ span ∈ info.pairSpans source, span.first + span.length ≤ source.size

namespace Paid

variable {info : DebugInfo} {source : ByteArray} {bound : Nat}

theorem lengths (h : info.Paid source) :
    info.tables.map (fun t => 6 * t.entries.length) =
      (info.pairSpans source).map Span.length := by
  rw [← List.forall₂_eq_eq_eq, List.forall₂_map_left_iff, List.forall₂_map_right_iff]
  exact h.tables.imp fun _ _ hpays => hpays.length.symm

theorem length_le (h : info.Paid source) {t : LineTable} (ht : t ∈ info.tables) :
    6 * t.entries.length ≤ source.size := by
  have hmem : 6 * t.entries.length ∈ (info.pairSpans source).map Span.length := by
    rw [← h.lengths]
    exact List.mem_map_of_mem ht
  obtain ⟨span, hspan, hlength⟩ := List.mem_map.1 hmem
  have hwithin := h.within span hspan
  omega

theorem pairCount_le (h : info.Paid source)
    (hshared : ∀ i < source.size, Span.depth (info.pairSpans source) i ≤ bound) :
    6 * info.pairCount ≤ bound * source.size := by
  calc 6 * info.pairCount
    _ = (info.tables.map fun t => 6 * t.entries.length).sum := by
      rw [pairCount, List.sum_map_mul_left]
    _ = ((info.pairSpans source).map Span.length).sum := by rw [h.lengths]
    _ ≤ bound * source.size := Span.sum_length_le h.within hshared

end Paid

end DebugInfo

namespace Parser

variable {p : Parser} {source : ByteArray} {base : Nat} {info : DebugInfo}

theorem tables_of_mem_subsections (hsize : source.size ≤ Cursor.maxPosition)
    (h : p.parse source base = .ok info) {s : Subsection} (hs : s ∈ info.subsections) :
    List.Forall₂ (fun t span => Span.Pays source span t) s.tables
        (s.pairSpans source info.base) ∧
      ∀ span ∈ s.pairSpans source info.base, span.first + span.length ≤ source.size := by
  obtain ⟨signature, rfl⟩ := eq_ofOutcomes_of_parse rfl (parse_lenient_of_ok h)
  exact Subsection.tables_of_decodes hsize (decodes_of_mem_subsections hs)

theorem paid_of_parse (hsize : source.size ≤ Cursor.maxPosition)
    (h : p.parse source base = .ok info) : info.Paid source := by
  constructor
  case tables =>
    rw [DebugInfo.tables_eq_flatMap, DebugInfo.pairSpans]
    exact forall₂_flatMap fun s hs => (tables_of_mem_subsections hsize h hs).1
  case within =>
    intro span hspan
    obtain ⟨s, hs, hspan⟩ := List.mem_flatMap.1 hspan
    exact (tables_of_mem_subsections hsize h hs).2 span hspan

/-- **A result is paid for.** Each line table of a result has six bytes of the source for each of
its pairs, and its pairs are what these bytes store. If no byte serves more than `bound` tables at
once, then all pairs together take no more than `bound` times the source, and without sharing no
more than the source. -/
theorem six_mul_pairCount_le (p : Parser) (source : ByteArray) (base : Nat)
    (hsize : source.size < 0x8000000000000000) (h : p.parse source base = .ok info) :
    info.Paid source ∧ (∀ t ∈ info.tables, 6 * t.entries.length ≤ source.size) ∧
      ∀ bound, (∀ i < source.size, Span.depth (info.pairSpans source) i ≤ bound) →
        6 * info.pairCount ≤ bound * source.size := by
  have hnameable : source.size ≤ Cursor.maxPosition := by
    unfold Cursor.maxPosition UInt64.size
    omega
  have hpaid := paid_of_parse hnameable h
  exact ⟨hpaid, fun t ht => hpaid.length_le ht, fun bound hshared => hpaid.pairCount_le hshared⟩

/-- A source module with five files, which are one file table with one line table of four pairs. -/
def sharedBlob : ByteArray :=
  ⟨#[0x4e, 0x42, 0x30, 0x39, 8, 0, 0, 0,
    16, 0, 12, 0, 1, 0, 0, 0, 0, 0, 0, 0, 0, 0, 0, 0,
    0x27, 1, 1, 0, 36, 0, 0, 0, 70, 0, 0, 0,
    5, 0, 0, 0, 24, 0, 0, 0, 24, 0, 0, 0, 24, 0, 0, 0, 24, 0, 0, 0, 24, 0, 0, 0,
    1, 0, 0, 0, 42, 0, 0, 0, 0, 0, 0, 0, 3, 0, 0, 0, 1, 97,
    7, 0, 4, 0, 0, 0, 0, 0, 1, 0, 0, 0, 2, 0, 0, 0, 3, 0, 0, 0, 5, 0, 6, 0, 7, 0, 8, 0]⟩

/-- What is read of it. -/
def sharedInfo : DebugInfo :=
  let file : SourceFile := ⟨"a", [⟨7, 0, 3, #[0, 1, 2, 3], #[5, 6, 7, 8]⟩]⟩
  ⟨.nb09, 0, ⟨16, 12, 1, 0, 0⟩,
    [⟨0, ⟨.sourceModule, 1, 36, 70⟩, .sourceModule ⟨[], [file, file, file, file, file]⟩⟩], []⟩

theorem parse_sharedBlob : default.parse sharedBlob 0 = .ok sharedInfo := by decide +kernel

/-- Twenty pairs from the bytes of four. -/
theorem pairCount_sharedBlob :
    ∃ info, default.parse sharedBlob 0 = .ok info ∧ ¬ 6 * info.pairCount ≤ sharedBlob.size :=
  ⟨_, parse_sharedBlob, by decide⟩

theorem six_mul_pairCount_le_sharedBlob :
    sharedBlob.size < 0x8000000000000000 ∧ default.parse sharedBlob 0 = .ok sharedInfo ∧
      (∀ i < sharedBlob.size, Span.depth (sharedInfo.pairSpans sharedBlob) i ≤ 5) ∧
      6 * sharedInfo.pairCount ≤ 5 * sharedBlob.size := by
  have hsize : sharedBlob.size < 0x8000000000000000 := by decide
  have hshared : ∀ i < sharedBlob.size, Span.depth (sharedInfo.pairSpans sharedBlob) i ≤ 5 := by
    decide +kernel
  exact ⟨hsize, parse_sharedBlob, hshared,
    (six_mul_pairCount_le default sharedBlob 0 hsize parse_sharedBlob).2.2 5 hshared⟩

end Parser

end CodeView
