import CodeView.Proofs.LineTable
import CodeView.Proofs.Reading
import CodeView.Proofs.SourceModule.Plain

/-!
# What the reader of source modules accepts

`SourceModule.read_ok_iff_fits` says that the reader succeeds exactly on the records that fit, and
that it then gives what is stored. The layout asks where each table lies and nothing about the
way there, so the statement for a table holds wherever the cursor stood before. The tables of a
file are one list of such readings, the files of a record another.
-/

namespace CodeView

open Read

/-! ## The layout can be checked -/

instance (source : ByteArray) (limit position : Nat) (range : UInt32 × UInt32) :
    Decidable (LineTable.Fits source limit position range) :=
  decidable_of_iff (position + 4 ≤ limit ∧
      position + 4 + 6 * LineTable.pairsAt source position ≤ limit ∧
      (LineTable.stored source position range).WellFormed)
    ⟨fun ⟨head, pairs, wellFormed⟩ => ⟨head, pairs, wellFormed⟩,
      fun h => ⟨h.head, h.pairs, h.wellFormed⟩⟩

instance (source : ByteArray) (base limit position : Nat) :
    Decidable (SourceFile.Fits source base limit position) :=
  let name := SourceFile.namePlace source position
  decidable_of_iff (position + 4 ≤ limit ∧ wordAt UInt16 source (position + 2) = 0 ∧
      name + 1 ≤ limit ∧ name + 1 + (byteAt source name).toNat ≤ limit ∧
      ∀ i < SourceFile.countAt source position, LineTable.Fits source limit
        (SourceFile.tablePlace source base position i) (SourceFile.rangeOf source position i))
    ⟨fun ⟨head, reserved, nameHead, name, tables⟩ => ⟨head, reserved, nameHead, name, tables⟩,
      fun h => ⟨h.head, h.reserved, h.nameHead, h.name, h.tables⟩⟩

instance (source : ByteArray) (base limit : Nat) :
    Decidable (SourceModule.Fits source base limit) :=
  decidable_of_iff (base + 4 ≤ limit ∧
      base + 4 + 4 * SourceModule.fileCountAt source base +
        10 * SourceModule.extentCountAt source base ≤ limit ∧
      ∀ i < SourceModule.fileCountAt source base,
        SourceFile.Fits source base limit (SourceModule.filePlace source base i))
    ⟨fun ⟨head, tables, files⟩ => ⟨head, tables, files⟩,
      fun h => ⟨h.head, h.tables, h.files⟩⟩

namespace SourceModule

variable {c c' : Cursor} {base : Nat} {offset : UInt32}

/-- The line table is read from its place, whatever the cursor read before. -/
theorem readTable_eq_ok (c : Cursor) {range : UInt32 × UInt32} {t : LineTable}
    (hlimit : c.limit ≤ Cursor.maxPosition) (hbase : c.start ≤ base) :
    readTable base offset range c = .ok t c' ↔
      LineTable.Fits c.source c.limit (base + offset.toNat) range ∧
        t = LineTable.stored c.source (base + offset.toNat) range ∧
        c' = c.moveTo (base + offset.toNat + 4 +
          6 * LineTable.pairsAt c.source (base + offset.toNat)) := by
  have hstart : c.start ≤ base + offset.toNat := by omega
  simp only [readTable, seekFrom_bind_eq_ok]
  generalize base + offset.toNat = place at *
  -- the table that is put together, with its places in the form that the run leaves them in
  have hstored : LineTable.stored c.source place range =
      ⟨wordAt UInt16 c.source place, range.1, range.2,
        Array.ofFn fun i : Fin (LineTable.pairsAt c.source place) =>
          wordAt UInt32 c.source (place + 4 + i * 4),
        Array.ofFn fun i : Fin (LineTable.pairsAt c.source place) =>
          wordAt UInt16 c.source (place + 4 + LineTable.pairsAt c.source place * 4 + i * 2)⟩ :=
    rfl
  simp only [word_bind_eq_ok, ensure_bind_eq_ok, words_bind_eq_ok, check_eq_ok,
    LineTable.ofParts_eq_ok, width_uint16, width_uint32, Cursor.pos_moveTo, Cursor.source_moveTo,
    Cursor.limit_moveTo, Cursor.moveTo_moveTo, Cursor.remaining, Nat.add_assoc, Nat.reduceAdd]
  simp only [LineTable.pairsAt, Nat.add_assoc] at hstored
  rw [← hstored]
  have hpairs : LineTable.pairsAt c.source place = (wordAt UInt16 c.source (place + 2)).toNat :=
    rfl
  rw [← hpairs]
  constructor
  · intro h
    obtain ⟨-, -, hhead, -, -, hlines, ⟨hwell, rfl⟩, rfl⟩ := h
    refine ⟨⟨hhead, ?_, hwell⟩, rfl, ?_⟩
    · omega
    · congr 1
      omega
  · intro h
    obtain ⟨⟨hhead, hlines, hwell⟩, rfl, rfl⟩ := h
    -- the lines are read last, so their bound gives every bound before them
    refine ⟨?_, ?_, hhead, ?_, ?_, ?_, ⟨hwell, rfl⟩, ?_⟩
    · exact ⟨by omega, hstart, by omega⟩
    · omega
    · omega
    · omega
    · omega
    · congr 1
      omega

theorem decides_readTable (offset : UInt32) (range : UInt32 × UInt32)
    (hlimit : c.limit ≤ Cursor.maxPosition) (hbase : c.start ≤ base) :
    Decides c (readTable base offset range)
      (LineTable.Fits c.source c.limit (base + offset.toNat) range)
      (LineTable.stored c.source (base + offset.toNat) range) := by
  have run (pos : Nat) (t : LineTable) (c' : Cursor) :
      readTable base offset range (c.moveTo pos) = .ok t c' ↔
        LineTable.Fits c.source c.limit (base + offset.toNat) range ∧
          t = LineTable.stored c.source (base + offset.toNat) range ∧
          c' = c.moveTo (base + offset.toNat + 4 +
            6 * LineTable.pairsAt c.source (base + offset.toNat)) :=
    readTable_eq_ok (c.moveTo pos) hlimit hbase
  constructor
  · intro pos t
    simp only [run]
    constructor
    · intro h
      obtain ⟨_, hfits, ht, -⟩ := h
      exact ⟨hfits, ht⟩
    · intro h
      obtain ⟨hfits, ht⟩ := h
      exact ⟨_, hfits, ht, rfl⟩
  · intro pos t c' h
    exact ⟨_, ((run pos t c').1 h).2.2⟩

/-- The offset and the claimed range of each line table of the file table at a position. -/
def pointers (source : ByteArray) (position : Nat) :
    List (UInt32 × UInt32 × UInt32) :=
  (List.range (SourceFile.countAt source position)).map fun i =>
    (wordAt UInt32 source (position + 4 + i * 4), SourceFile.rangeOf source position i)

theorem zip_eq_pointers {source : ByteArray} {position count : Nat}
    (hcount : count = SourceFile.countAt source position) :
    (Array.ofFn fun i : Fin count => wordAt UInt32 source (position + 4 + i * 4)).toList.zip
      (Array.ofFn fun i : Fin count => rangeAt source (position + 4 + count * 4 + i * 8)).toList =
      pointers source position := by
  rw [toList_ofFn count fun i => wordAt UInt32 source (position + 4 + i * 4),
    toList_ofFn count fun i => rangeAt source (position + 4 + count * 4 + i * 8),
    List.zip_map', hcount]
  rfl

theorem decides_tables (position : Nat) (hlimit : c.limit ≤ Cursor.maxPosition)
    (hbase : c.start ≤ base) :
    Decides c
      ((pointers c.source position).mapM fun (offset, range) => readTable base offset range)
      (∀ i < SourceFile.countAt c.source position,
        LineTable.Fits c.source c.limit (SourceFile.tablePlace c.source base position i)
          (SourceFile.rangeOf c.source position i))
      ((List.range (SourceFile.countAt c.source position)).map fun i =>
        LineTable.stored c.source (SourceFile.tablePlace c.source base position i)
          (SourceFile.rangeOf c.source position i)) := by
  rw [pointers, List.mapM_map]
  have each := Decides.mapM (c := c) (List.range (SourceFile.countAt c.source position))
    fun i _ => decides_readTable (wordAt UInt32 c.source (position + 4 + i * 4))
      (SourceFile.rangeOf c.source position i) hlimit hbase
  simp only [List.mem_range] at each
  exact each

/-- A file table fits up to the end of its name before any of its line tables is read. -/
theorem readFile_eq_ok (c : Cursor) {file : SourceFile} (hlimit : c.limit ≤ Cursor.maxPosition)
    (hbase : c.start ≤ base) {place namePlace : Nat} (hplace : place = base + offset.toNat)
    (hname : namePlace = SourceFile.namePlace c.source place) :
    readFile base offset c = .ok file c' ↔
      (place + 4 ≤ c.limit ∧ wordAt UInt16 c.source (place + 2) = 0 ∧
        namePlace + 1 ≤ c.limit ∧
        namePlace + 1 + (byteAt c.source namePlace).toNat ≤ c.limit) ∧
      ((pointers c.source place).mapM (fun (offset, range) => readTable base offset range) >>=
          fun tables => pure (SourceFile.mk (Text.Lossy.decode (bytesAt c.source (namePlace + 1)
            (byteAt c.source namePlace).toNat)) tables))
        (c.moveTo (namePlace + 1 + (byteAt c.source namePlace).toNat)) = .ok file c' := by
  have hstart : c.start ≤ place := by omega
  have hhead : place + 2 + 2 = place + 4 := rfl
  have hcount : (wordAt UInt16 c.source place).toNat = SourceFile.countAt c.source place := rfl
  have hend : namePlace = place + 4 + (wordAt UInt16 c.source place).toNat * 4 +
      (wordAt UInt16 c.source place).toNat * 8 := by
    simp only [hname, SourceFile.namePlace, hcount]
    omega
  simp only [readFile, seekFrom_bind_eq_ok, ← hplace]
  -- the run in two steps: the conditions first, then the cursors, which occur in them
  simp only [word_bind_eq_ok, position_bind_eq_ok, guard_bind_eq_ok, words_bind_eq_ok,
    table_bind_eq_ok, prefixedName_bind_eq_ok]
  simp only [width_uint16, width_uint32, Cursor.pos_moveTo, Cursor.source_moveTo,
    Cursor.limit_moveTo, Cursor.moveTo_moveTo, hhead, ← hend, zip_eq_pointers hcount]
  rw [Decidable.not_not]
  constructor
  · intro h
    obtain ⟨-, -, hfour, hpad, -, -, hfit, htables⟩ := h
    exact ⟨⟨hfour, hpad, hfit⟩, htables⟩
  · intro h
    obtain ⟨⟨hfour, hpad, hfit⟩, htables⟩ := h
    exact ⟨⟨by omega, hstart, by omega⟩, by omega, hfour, hpad, by omega, by omega, hfit, htables⟩

/-- A file table is read from its place too. -/
theorem decides_readFile (offset : UInt32) (hlimit : c.limit ≤ Cursor.maxPosition)
    (hbase : c.start ≤ base) :
    Decides c (readFile base offset)
      (SourceFile.Fits c.source base c.limit (base + offset.toNat))
      (SourceFile.stored c.source base (base + offset.toNat)) := by
  generalize hplace : base + offset.toNat = place
  have tables := (decides_tables place hlimit hbase).map fun tables =>
    SourceFile.mk (SourceFile.stored c.source base place).name tables
  constructor
  · intro pos file
    constructor
    · intro h
      obtain ⟨c', h⟩ := h
      obtain ⟨⟨hhead, hpad, hlength, hname⟩, htables⟩ :=
        (readFile_eq_ok (c.moveTo pos) hlimit hbase hplace.symm rfl).1 h
      obtain ⟨hfits, hfile⟩ := (tables.ok_iff _ file).1 ⟨c', htables⟩
      exact ⟨⟨hhead, hpad, hlength, hname, hfits⟩, hfile⟩
    · intro h
      obtain ⟨hfits, hfile⟩ := h
      obtain ⟨c', htables⟩ := (tables.ok_iff _ file).2 ⟨hfits.tables, hfile⟩
      refine ⟨c', (readFile_eq_ok (c.moveTo pos) hlimit hbase hplace.symm rfl).2 ⟨?_, htables⟩⟩
      exact ⟨hfits.head, hfits.reserved, hfits.nameHead, hfits.name⟩
  · intro pos file c' h
    have htables := ((readFile_eq_ok (c.moveTo pos) hlimit hbase hplace.symm rfl).1 h).2
    exact tables.moves _ _ _ htables

/-- The files that the record at `base` points at. -/
theorem decides_files (hlimit : c.limit ≤ Cursor.maxPosition) (hbase : c.start ≤ base) :
    Decides c
      ((Array.ofFn fun i : Fin (fileCountAt c.source base) =>
        wordAt UInt32 c.source (base + 4 + i * 4)).toList.mapM (readFile base))
      (∀ i < fileCountAt c.source base,
        SourceFile.Fits c.source base c.limit (filePlace c.source base i))
      ((List.range (fileCountAt c.source base)).map fun i =>
        SourceFile.stored c.source base (filePlace c.source base i)) := by
  rw [toList_ofFn _ fun i => wordAt UInt32 c.source (base + 4 + i * 4), List.mapM_map]
  have each := Decides.mapM (c := c) (List.range (fileCountAt c.source base))
    fun i _ => decides_readFile (wordAt UInt32 c.source (base + 4 + i * 4)) hlimit hbase
  simp only [List.mem_range] at each
  exact each

theorem zipWith_eq_extents {source : ByteArray} {base files extents : Nat}
    (hfiles : files = fileCountAt source base) (hextents : extents = extentCountAt source base) :
    (Array.ofFn fun i : Fin extents =>
        wordAt UInt16 source (base + 4 + files * 4 + extents * 8 + i * 2)).toList.zipWith
      (fun segment (first, last) => (⟨segment, first, last⟩ : SegmentExtent))
      (Array.ofFn fun i : Fin extents => rangeAt source (base + 4 + files * 4 + i * 8)).toList =
      (stored source base).extents := by
  rw [toList_ofFn extents fun i =>
      wordAt UInt16 source (base + 4 + files * 4 + extents * 8 + i * 2),
    toList_ofFn extents fun i => rangeAt source (base + 4 + files * 4 + i * 8),
    List.zipWith_map, List.zipWith_self, hfiles, hextents]
  rfl

/-- **The layout is what the reader accepts.** A record is read if and only if it fits in the
window, and the module that is read is the one that is stored. -/
theorem read_ok_iff_fits (hc : c.Addressable) (m : SourceModule) :
    (∃ c', read c = .ok m c') ↔
      Fits c.source c.pos c.limit ∧ m = stored c.source c.pos := by
  obtain ⟨⟨hstart, -, hsource⟩, hnameable⟩ := hc
  have hlimit : c.limit ≤ Cursor.maxPosition := by omega
  have hfiles : (wordAt UInt16 c.source c.pos).toNat = fileCountAt c.source c.pos := rfl
  have hextents : (wordAt UInt16 c.source (c.pos + 2)).toNat = extentCountAt c.source c.pos := rfl
  have hhead : c.pos + 2 + 2 = c.pos + 4 := rfl
  have files := (decides_files hlimit hstart).map fun files =>
    SourceModule.mk (stored c.source c.pos).extents files
  simp only [read_eq_readPlain, readPlain]
  simp only [word_bind_eq_ok, position_bind_eq_ok, words_bind_eq_ok, table_bind_eq_ok]
  simp only [width_uint16, width_uint32, Cursor.pos_moveTo, Cursor.source_moveTo,
    Cursor.limit_moveTo, Cursor.moveTo_moveTo, hhead, zipWith_eq_extents hfiles hextents]
  constructor
  · intro h
    obtain ⟨c', -, hfour, -, -, htables, h⟩ := h
    obtain ⟨hfits, rfl⟩ := (files.ok_iff _ m).1 ⟨c', h⟩
    refine ⟨⟨hfour, ?_, hfits⟩, rfl⟩
    rw [← hfiles, ← hextents]
    omega
  · intro h
    obtain ⟨⟨hfour, htables, hfits⟩, hm⟩ := h
    obtain ⟨c', h⟩ := (files.ok_iff _ m).2 ⟨hfits, hm⟩
    rw [← hfiles, ← hextents] at htables
    -- the segment numbers are read last of what stands before the file tables
    exact ⟨c', by omega, hfour, by omega, by omega, by omega, h⟩

/-- Two file tables at one place, which share a line table. -/
def sharedTables : ByteArray :=
  ⟨#[2, 0, 1, 0, 22, 0, 0, 0, 22, 0, 0, 0, 0, 1, 0, 0, 0, 2, 0, 0, 7, 0,
    1, 0, 0, 0, 40, 0, 0, 0, 0, 1, 0, 0, 0, 2, 0, 0, 1, 97,
    7, 0, 2, 0, 0, 1, 0, 0, 0, 1, 0, 0, 5, 0, 6, 0]⟩

theorem read_ok_sharedTables :
    let c := Cursor.ofBytes sharedTables
    let file : SourceFile := ⟨"a", [⟨7, 256, 512, #[256, 256], #[5, 6]⟩]⟩
    c.Addressable ∧ Fits sharedTables 0 56 ∧
      ∃ c', read c = .ok ⟨[⟨7, 256, 512⟩], [file, file]⟩ c' := by
  intro c file
  have addressable : c.Addressable := ⟨by decide, by decide⟩
  have fits : Fits sharedTables 0 56 := by decide +kernel
  have same : ⟨[⟨7, 256, 512⟩], [file, file]⟩ = stored sharedTables 0 := by decide +kernel
  exact ⟨addressable, fits, (read_ok_iff_fits addressable _).2 ⟨fits, same⟩⟩

end SourceModule

end CodeView
