import Mathlib.Control.Monad.Basic
import CodeView.Proofs.LineTable
import CodeView.Proofs.Reports
import CodeView.Proofs.SourceModule.Acceptance
import CodeView.Record

/-!
# What decoders report

A decoder that gives up on a content says why, and `Defect` says what must be so for the report to
be true: what the content lacks or holds is found at the position, or in the table, that the report
names. `Decoder.defect_of_read` says that every report of every decoder is true.
-/

namespace CodeView

open Read (Reports)

/-! ## True reports -/

namespace LineTable

/-- Offset `k` of the line table at a position. -/
def offsetAt (source : ByteArray) (position k : Nat) : UInt32 :=
  wordAt UInt32 source (position + 4 + k * 4)

/-- What is wrong with the line table at a position, for the range that its file claims. -/
inductive Fault (source : ByteArray) (position : Nat) (range : UInt32 × UInt32) :
    FormatError → Prop
  | inverted (h : range.2 < range.1) : Fault source position range
      (.invertedRange (wordAt UInt16 source position) range.1 range.2)
  | decreases {index : Nat} (first : 1 ≤ index) (stored : index < pairsAt source position)
      (sorted : ∀ k, k + 1 < index →
        offsetAt source position k ≤ offsetAt source position (k + 1))
      (decrease : offsetAt source position index < offsetAt source position (index - 1)) :
      Fault source position range
        (.nonMonotonicOffsets (wordAt UInt16 source position) index)

/-- What `ofParts` reports is wrong with the line table whose parts it was given. -/
theorem fault_of_ofParts {source : ByteArray} {position pairs : Nat} {range : UInt32 × UInt32}
    {e : FormatError} (hpairs : pairs = pairsAt source position)
    (h : ofParts (wordAt UInt16 source position) range.1 range.2
      (Array.ofFn fun i : Fin pairs => wordAt UInt32 source (position + 4 + i * 4))
      (Array.ofFn fun i : Fin pairs =>
        wordAt UInt16 source (position + 4 + pairs * 4 + i * 2)) = .error e) :
    Fault source position range e := by
  subst hpairs
  obtain ⟨hinverted, rfl⟩ | ⟨index, hindex, rfl⟩ := error_of_ofParts (by simp) h
  · exact .inverted hinverted
  · obtain ⟨hfirst, hsize, hdecrease, hsorted⟩ := decrease_of_firstDecrease? hindex
    rw [Array.size_ofFn] at hsize
    have hoffset (k : Nat) (hk : k ≤ index) :
        (Array.ofFn fun i : Fin (pairsAt source position) =>
          wordAt UInt32 source (position + 4 + i * 4)).getD k 0 = offsetAt source position k := by
      have hk : k < pairsAt source position := by omega
      simp [hk, offsetAt]
    rw [hoffset index (Nat.le_refl _), hoffset (index - 1) (Nat.sub_le _ _)] at hdecrease
    refine .decreases hfirst hsize (fun k hk => ?_) hdecrease
    rw [← hoffset k (by omega), ← hoffset (k + 1) (by omega)]
    exact hsorted k hk

end LineTable

namespace SourceModule

/-- Where line table `j` of file `i` of the record at a position lies. -/
def linePlace (source : ByteArray) (base i j : Nat) : Nat :=
  SourceFile.tablePlace source base (filePlace source base i) j

/-- The range that file `i` of the record at a position claims for its line table `j`. -/
def lineRange (source : ByteArray) (base i j : Nat) : UInt32 × UInt32 :=
  SourceFile.rangeOf source (filePlace source base i) j

/-- File `i` of the record at a position has a line table `j`. The table and every field that leads
to it end at or before the limit. -/
structure HoldsTable (source : ByteArray) (base limit i j : Nat) : Prop where
  file : i < fileCountAt source base
  files : base + 4 + 4 * fileCountAt source base ≤ limit
  table : j < SourceFile.countAt source (filePlace source base i)
  tables : SourceFile.namePlace source (filePlace source base i) ≤ limit
  pairs : linePlace source base i j + 4 +
    6 * LineTable.pairsAt source (linePlace source base i j) ≤ limit

end SourceModule

/-- An error that is true of the content between two positions. -/
inductive Defect (source : ByteArray) (start limit : Nat) : FormatError → Prop
  | outOfBounds {position length : Nat} (within : start ≤ position)
      (crosses : limit < position + length) :
      Defect source start limit (.outOfBounds position length limit)
  | badPadding {position : Nat} {value : UInt16} (within : start ≤ position)
      (fits : position + 2 ≤ limit) (nonzero : value ≠ 0)
      (stored : value = wordAt UInt16 source position) :
      Defect source start limit (.badPadding position value)
  | lineTable {i j : Nat} {e : FormatError}
      (holds : SourceModule.HoldsTable source start limit i j)
      (fault : LineTable.Fault source (SourceModule.linePlace source start i j)
        (SourceModule.lineRange source start i j) e) :
      Defect source start limit e

variable {c : Cursor} {pos : Nat} {fault : FormatError → Prop}

/-! ## Records without fields to be judged -/

theorem LibraryList.reports_readNames (names : Array String) (bound : Nat) (pos : Nat) :
    Reports c pos fault (readNames names bound) := by
  induction bound generalizing names pos with
  | zero => exact .pure names.toList
  | succ bound ih =>
    unfold readNames
    refine .remaining_bind (.ite (fun _ => .pure _) fun _ => ?_)
    exact Reports.prefixedName.bind fun name pos' =>
      .ite (fun _ => .pure _) fun _ => ih (names.push name) pos'

theorem LibraryList.reports_read : Reports c pos fault read :=
  .remaining_bind (reports_readNames #[] _ pos)

namespace NameTable

theorem reports_readEntries {name : Read String} (hname : ∀ pos, Reports c pos fault name)
    (origin : Nat) (entries : Array (UInt32 × String)) (bound : Nat) (pos : Nat) :
    Reports c pos fault (readEntries origin name entries bound) := by
  induction bound generalizing entries pos with
  | zero => exact .pure _
  | succ bound ih =>
    unfold readEntries
    refine .remaining_bind (.ite (fun _ => .pure _) fun _ => .position_bind ?_)
    exact (hname pos).bind fun text pos' =>
      .ite (fun _ => .pure _) fun _ => ih (entries.push (offsetOf (pos - origin), text)) pos'

theorem reports_readFrom {name : Read String} (hname : ∀ pos, Reports c pos fault name)
    (origin : Nat) : Reports c pos fault (readFrom origin name) :=
  .remaining_bind (reports_readEntries hname origin #[] _ pos)

theorem reports_readSegmentNames : Reports c pos fault readSegmentNames :=
  .get_bind (reports_readFrom (fun _ => .terminatedName) c.start)

end NameTable

theorem FileIndex.reports_read : Reports c pos fault read := by
  unfold read
  refine .word_bind fun _ => .word_bind fun _ => .words_bind fun _ => .words_bind fun _ => ?_
  refine .words_bind fun _ => .position_bind ?_
  exact (NameTable.reports_readFrom (fun _ => .prefixedName) _).bind fun files _ => .pure _

theorem GlobalSymbols.reports_read : Reports c pos fault read := by
  unfold read
  refine .word_bind fun _ => .word_bind fun _ => .word_bind fun _ => .word_bind fun _ => ?_
  exact .word_bind fun _ => .pure _

/-! ## Reserved fields -/

theorem ModuleInfo.reports_read :
    Reports c c.start (Defect c.source c.start c.limit) read := by
  unfold read
  refine .word_bind fun _ => .word_bind fun _ => .word_bind fun _ => .word_bind fun _ => ?_
  refine .ensure_bind (.position_bind (.get_bind ?_))
  simp only [Cursor.source_moveTo]
  generalize hplaces : reservedPlaces _ _ = places
  cases hfound : firstNonzero? c.source places with
  | none =>
    refine .table_bind fun _ => ?_
    exact Reports.prefixedName.bind fun name _ => .pure _
  | some place =>
    have hnonzero : wordAt UInt16 c.source place ≠ 0 := by
      rw [firstNonzero?] at hfound
      simpa using List.find?_some hfound
    have hstart : c.start ≤ place := by
      have hmem := List.mem_of_find?_eq_some hfound
      rw [← hplaces] at hmem
      obtain ⟨i, -, rfl⟩ := List.mem_map.1 hmem
      omega
    -- the jump behind the field asks for the room that the field takes
    exact .seek_bind (by omega) fun hfits => .throw (.badPadding hstart hfits hnonzero rfl)

/-! ## Source modules -/

namespace SourceModule

/-- The line table is judged when all of it has been read. -/
theorem reports_readTable {base place : Nat} {offset : UInt32} {range : UInt32 × UInt32}
    (hbase : c.Within base) (hplace : place = base + offset.toNat)
    (hfault : place + 4 + 6 * LineTable.pairsAt c.source place ≤ c.limit →
      ∀ e, LineTable.Fault c.source place range e → fault e) :
    Reports c pos fault (readTable base offset range) := by
  unfold readTable
  refine .seekFrom_bind hbase fun _ => ?_
  rw [← hplace]
  refine .word_bind fun _ => .word_bind fun _ => .ensure_bind (.words_bind fun _ => ?_)
  refine .words_bind fun hend => .check fun e he => ?_
  have hhead : place + 2 + 2 = place + 4 := rfl
  have hpairs : (wordAt UInt16 c.source (place + 2)).toNat = LineTable.pairsAt c.source place := rfl
  simp only [width_uint16, width_uint32, hhead] at hend he
  exact hfault (by omega) e (LineTable.fault_of_ofParts hpairs he)

variable {i : Nat}

theorem reports_readFile (hstart : c.Within c.start) (hi : i < fileCountAt c.source c.start)
    (hfiles : c.start + 4 + 4 * fileCountAt c.source c.start ≤ c.limit) (pos : Nat) :
    Reports c pos (Defect c.source c.start c.limit)
      (readFile c.start (wordAt UInt32 c.source (c.start + 4 + i * 4))) := by
  unfold readFile
  refine .seekFrom_bind hstart fun _ => ?_
  generalize hplace : c.start + (wordAt UInt32 c.source (c.start + 4 + i * 4)).toNat = place
  have hcount : (wordAt UInt16 c.source place).toNat = SourceFile.countAt c.source place := rfl
  have hhead : place + 2 + 2 = place + 4 := rfl
  refine .word_bind fun _ => .position_bind (.word_bind fun hpad => ?_)
  refine .ite (fun hnonzero => .throw_bind ?_) fun _ => ?_
  · have hfrom : c.start ≤ place + 2 := by omega
    exact .badPadding hfrom hpad hnonzero rfl
  refine .words_bind fun _ => .table_bind fun hranges => ?_
  refine Reports.prefixedName.bind fun name _ => ?_
  simp only [width_uint16, width_uint32, hhead, zip_eq_pointers hcount] at hranges ⊢
  refine (Reports.mapM (fun pointer hpointer pos => ?_) _).bind fun tables _ => .pure _
  obtain ⟨j, hj, rfl⟩ := List.mem_map.1 hpointer
  rw [List.mem_range] at hj
  subst hplace
  have htables : SourceFile.namePlace c.source (filePlace c.source c.start i) ≤ c.limit := by
    rw [SourceFile.namePlace, filePlace]
    omega
  exact reports_readTable hstart rfl fun hpairs e he =>
    .lineTable ⟨hi, hfiles, hj, htables, hpairs⟩ he

theorem reports_read (hstart : c.Within c.start) :
    Reports c c.start (Defect c.source c.start c.limit) read := by
  rw [read_eq_readPlain]
  unfold readPlain
  refine .position_bind (.word_bind fun _ => .word_bind fun _ => .words_bind fun hfiles => ?_)
  refine .table_bind fun _ => .words_bind fun _ => ?_
  have hhead : c.start + 2 + 2 = c.start + 4 := rfl
  simp only [width_uint16, width_uint32, hhead] at hfiles ⊢
  refine (Reports.mapM (fun offset hoffset pos => ?_) _).bind fun files _ => .pure _
  rw [Read.toList_ofFn _ fun i => wordAt UInt32 c.source (c.start + 4 + i * 4)] at hoffset
  obtain ⟨i, hi, rfl⟩ := List.mem_map.1 hoffset
  rw [List.mem_range] at hi
  have hend : c.start + 4 + 4 * fileCountAt c.source c.start ≤ c.limit := by
    rw [fileCountAt]
    omega
  exact reports_readFile hstart hi hend pos

end SourceModule

/-! ## All decoders -/

namespace Decoder

theorem reports_read (decoder : Decoder) (hstart : c.Within c.start) :
    Reports c c.start (Defect c.source c.start c.limit) decoder.read := by
  cases decoder with
  | moduleInfo => exact ModuleInfo.reports_read.bind fun info _ => .pure _
  | sourceModule => exact (SourceModule.reports_read hstart).bind fun module _ => .pure _
  | libraries => exact LibraryList.reports_read.bind fun names _ => .pure _
  | globalSymbols => exact GlobalSymbols.reports_read.bind fun header _ => .pure _
  | segmentNames => exact NameTable.reports_readSegmentNames.bind fun names _ => .pure _
  | fileIndex => exact FileIndex.reports_read.bind fun index _ => .pure _

/-- A report is true, unless the source is so large that an offset leads to a position that cannot
be named. -/
theorem defect_or_nameless {decoder : Decoder} {c' : Cursor} {e : FormatError}
    (hstart : c.Within c.start) (hpos : c.pos = c.start) (h : decoder.read c = .error e c') :
    Defect c.source c.start c.limit e ∨
      ∃ base offset, c.Within base ∧ Cursor.maxPosition < base + UInt32.toNat offset ∧
        e = .outOfBounds base 0 c.limit := by
  have hends : Read.Ends c (Defect c.source c.start c.limit) (decoder.read c) := by
    have hhere : c.moveTo c.start = c := by
      rw [← hpos]
      rfl
    have hends := decoder.reports_read hstart hstart
    rwa [hhere] at hends
  rw [h] at hends
  cases hends with
  | crosses hfrom hlimit => exact .inl (.outOfBounds hfrom hlimit)
  | nameless hbase hfar => exact .inr ⟨_, _, hbase, hfar, rfl⟩
  | fault he => exact .inl he

/-- **Every report of a decoder is true.** A decoder that gives up on a window asks for bytes behind
its end, has found a reserved field in it that is not zero, or has read a line table there whose
range or whose offsets are wrong as it says. It reports nothing else. -/
theorem defect_of_read (decoder : Decoder) (source : ByteArray) (start length : Nat)
    (what : String) {c c' : Cursor} {e : FormatError} (hsize : source.size < 0x8000000000000000)
    (hwindow : (Cursor.ofBytes source).window start length what = .ok c)
    (h : decoder.read c = .error e c') : Defect source start (start + length) e := by
  obtain ⟨hfits, rfl⟩ := Cursor.window_eq_ok.1 hwindow
  have hfits : start + length ≤ source.size := hfits
  obtain hdefect | ⟨base, offset, hbase, hfar, rfl⟩ :=
    defect_or_nameless ⟨Nat.le_refl start, Nat.le_add_right start length⟩ rfl h
  · exact hdefect
  · have hoffset := offset.toNat_lt
    have hlimit : base ≤ start + length := hbase.limit
    unfold Cursor.maxPosition UInt64.size at hfar
    omega

/-- Two bytes, and behind them a source module whose only line table goes back at its last pair. -/
def decreasingTable : ByteArray :=
  ⟨#[0, 0, 1, 0, 0, 0, 8, 0, 0, 0,
    1, 0, 0, 0, 26, 0, 0, 0, 0, 1, 0, 0, 0, 2, 0, 0, 1, 97,
    7, 0, 3, 0, 0, 1, 0, 0, 32, 1, 0, 0, 16, 1, 0, 0, 5, 0, 6, 0, 7, 0]⟩

theorem defect_of_read_decreasingTable :
    decreasingTable.size < 0x8000000000000000 ∧
      ∃ c c', (Cursor.ofBytes decreasingTable).window 2 48 "subsection content" = .ok c ∧
        Decoder.sourceModule.read c = .error (.nonMonotonicOffsets 7 2) c' ∧
        Defect decreasingTable 2 50 (.nonMonotonicOffsets 7 2) := by
  have hsize : decreasingTable.size < 0x8000000000000000 := by decide
  have hwindow : (Cursor.ofBytes decreasingTable).window 2 48 "subsection content" =
      .ok ⟨decreasingTable, 2, 50, 2⟩ := rfl
  have hresult : Decoder.sourceModule.read.result ⟨decreasingTable, 2, 50, 2⟩ =
      .error (.nonMonotonicOffsets 7 2) := by decide +kernel
  obtain ⟨c', hread⟩ := Read.result_eq_error.1 hresult
  exact ⟨hsize, _, c', hwindow, hread,
    defect_of_read .sourceModule decreasingTable 2 48 _ hsize hwindow hread⟩

end Decoder

end CodeView
