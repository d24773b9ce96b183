import CodeView.Proofs.SourceModule.Acceptance
import CodeView.Proofs.Text.Lossy
import CodeView.Proofs.Written
import CodeView.SourceModule.Write

/-!
# Source modules read back

`SourceModule.read_bytesOfFiles` says that the record written for a list of files is read as those
files. The argument goes down the levels of the record: wherever a line table was written, that
line table is stored and fits; wherever a file table was written, its offsets point at the line
tables behind it; and the header points at the file tables.
-/

namespace CodeView

/-- A line table that can be written: well formed, with a number of pairs that fits its field. -/
structure LineTable.Storable (t : LineTable) : Prop where
  wellFormed : t.WellFormed
  pairs : t.offsets.size ≤ 65535

/-- A file that can be written: a name whose length fits its byte, and such line tables. -/
structure SourceFile.Storable (f : SourceFile) : Prop where
  name : f.name.utf8ByteSize ≤ 255
  tables : ∀ t ∈ f.tables, t.Storable

/-- Files that can be written: their counts fit, and so does every offset in the record. -/
structure SourceModule.Storable (files : List SourceFile) : Prop where
  each : ∀ f ∈ files, f.Storable
  fileCount : files.length ≤ 65535
  tableCount : (files.flatMap (·.tables)).length ≤ 65535
  length : (bytesOfFiles files).length < UInt32.size

instance (t : LineTable) : Decidable t.Storable :=
  decidable_of_iff (t.WellFormed ∧ t.offsets.size ≤ 65535)
    ⟨fun ⟨wellFormed, pairs⟩ => ⟨wellFormed, pairs⟩, fun h => ⟨h.wellFormed, h.pairs⟩⟩

instance (f : SourceFile) : Decidable f.Storable :=
  decidable_of_iff (f.name.utf8ByteSize ≤ 255 ∧ ∀ t ∈ f.tables, t.Storable)
    ⟨fun ⟨name, tables⟩ => ⟨name, tables⟩, fun h => ⟨h.name, h.tables⟩⟩

instance (files : List SourceFile) : Decidable (SourceModule.Storable files) :=
  decidable_of_iff ((∀ f ∈ files, f.Storable) ∧ files.length ≤ 65535 ∧
      (files.flatMap (·.tables)).length ≤ 65535 ∧
      (SourceModule.bytesOfFiles files).length < UInt32.size)
    ⟨fun ⟨each, fileCount, tableCount, length⟩ => ⟨each, fileCount, tableCount, length⟩,
      fun h => ⟨h.each, h.fileCount, h.tableCount, h.length⟩⟩

/-! ## Fields -/

@[simp] theorem length_offsetBytes (offsets : List Nat) :
    (offsetBytes offsets).length = offsets.length * 4 :=
  length_flatMap_of_size (fun _ => length_wordBytes _) offsets

variable {source : ByteArray} {limit : Nat}

/-- A stored offset is the one that was written. -/
theorem Holds.offset {position : Nat} {offsets : List Nat}
    (h : Holds source position (offsetBytes offsets)) (i : Nat) (hi : i < offsets.length)
    (hsize : offsets[i] < UInt32.size) :
    (wordAt UInt32 source (position + i * 4)).toNat = offsets[i] := by
  have hword := h.item (fun _ => length_wordBytes _) i hi
  rw [width_uint32] at hword
  rw [hword.wordAt_eq, UInt32.toNat_ofNat_of_lt' hsize]

namespace LineTable

@[simp] theorem length_rangeBytes (t : LineTable) : t.rangeBytes.length = 8 := by
  simp [rangeBytes]

theorem rangeAt_of_holds {t : LineTable} {position : Nat}
    (h : Holds source position t.rangeBytes) : rangeAt source position = (t.first, t.last) := by
  have hlast := h.right
  rw [length_wordBytes, width_uint32] at hlast
  rw [rangeAt, h.left.wordAt_eq, hlast.wordAt_eq]

/-! ## Line tables -/

variable {t : LineTable} {place : Nat}

theorem pairsAt_of_holds (ht : t.Storable) (h : Holds source place t.bytes) :
    pairsAt source place = t.offsets.size := by
  have hcount := h.left.left.left.right
  rw [length_wordBytes, width_uint16] at hcount
  rw [pairsAt, hcount.wordAt_eq, toNat_count ht.pairs]

/-- A line table is stored where it was written. -/
theorem stored_of_holds (ht : t.Storable) (h : Holds source place t.bytes) :
    stored source place (t.first, t.last) = t := by
  have hpairs := pairsAt_of_holds ht h
  have hpaired := ht.wellFormed.paired
  have hoffsets := h.left.left.right
  have hlines := h.left.right
  simp only [List.length_append, length_wordBytes, length_flatMap_wordBytes, width_uint16,
    width_uint32, Array.length_toList, ← hpairs, Nat.reduceAdd, ← Nat.add_assoc]
    at hoffsets hlines
  calc stored source place (t.first, t.last)
    _ = ⟨t.segment, t.first, t.last, t.offsets, t.lines⟩ := by
      rw [LineTable.mk.injEq]
      refine ⟨h.left.left.left.left.wordAt_eq, rfl, rfl, ?_, ?_⟩
      · exact hoffsets.words hpairs
      · exact hlines.words (hpairs.trans hpaired.symm)
    _ = t := rfl

theorem fits_of_holds (ht : t.Storable) (h : Holds source place t.bytes)
    (hlimit : place + t.bytes.length ≤ limit) :
    Fits source limit place (t.first, t.last) := by
  have hlength : 4 + 6 * t.offsets.size ≤ t.bytes.length := by
    have hpaired := ht.wellFormed.paired
    have halign := le_alignUp (2 + 2 + t.offsets.size * 4 + t.lines.size * 2)
    simp only [bytes, length_aligned, List.length_append, length_wordBytes,
      length_flatMap_wordBytes, width_uint16, width_uint32, Array.length_toList]
    omega
  constructor
  · omega
  · rw [pairsAt_of_holds ht h]
    omega
  · rw [stored_of_holds ht h]
    exact ht.wellFormed

end LineTable

/-! ## File tables -/

namespace SourceFile

theorem length_headBytes (f : SourceFile) {offsets : List Nat}
    (h : offsets.length = f.tables.length) : (f.headBytes offsets).length = f.headLength := by
  simp only [headBytes, headLength, length_aligned, List.length_append, length_wordBytes,
    length_offsetBytes, length_flatMap_of_size LineTable.length_rangeBytes, length_prefixedBytes,
    width_uint16, h]
  congr 1
  omega

@[simp] theorem length_bytes (f : SourceFile) (start : Nat) :
    (f.bytes start).length = f.length := by
  rw [bytes, List.length_append, length_headBytes _ (by simp [tableBytes]), length]

/-- Where line table `i` begins, if the file is stored from `start` on. -/
def tableStart (f : SourceFile) (start i : Nat) : Nat :=
  start + f.headLength + ((f.tableBytes.map List.length).take i).sum

theorem tableStart_add_le (f : SourceFile) (start i : Nat) (hi : i < f.tables.length) :
    f.tableStart start i + f.tables[i].bytes.length ≤ start + f.length := by
  have hsum := sum_take_add_le (f.tableBytes.map List.length) i (by simpa [tableBytes] using hi)
  rw [← List.length_flatten] at hsum
  simp only [tableBytes, List.getElem_map] at hsum
  simp only [tableStart, length, tableBytes]
  omega

section Written

variable {f : SourceFile} {base start : Nat}

/-- The offsets of the line tables. -/
theorem holds_offsets (h : Holds source (base + start) (f.bytes start)) :
    Holds source (base + start + 4)
      (offsetBytes (starts (start + f.headLength) (f.tableBytes.map List.length))) := by
  have hoffsets := h.left.left.left.left.right
  simpa only [List.length_append, length_wordBytes, width_uint16] using hoffsets

theorem holds_ranges (h : Holds source (base + start) (f.bytes start)) :
    Holds source (base + start + 4 + f.tables.length * 4)
      (f.tables.flatMap LineTable.rangeBytes) := by
  have hranges := h.left.left.left.right
  simpa only [List.length_append, length_wordBytes, width_uint16, length_offsetBytes,
    length_starts, tableBytes, List.length_map, ← Nat.add_assoc] using hranges

theorem holds_name (h : Holds source (base + start) (f.bytes start)) :
    Holds source (base + start + 4 + f.tables.length * 4 + f.tables.length * 8)
      (prefixedBytes (Text.Lossy.encode f.name)) := by
  have hname := h.left.left.right
  simpa only [List.length_append, length_wordBytes, width_uint16, length_offsetBytes,
    length_starts, tableBytes, List.length_map, length_flatMap_of_size LineTable.length_rangeBytes,
    ← Nat.add_assoc] using hname

theorem holds_table (h : Holds source (base + start) (f.bytes start)) (i : Nat)
    (hi : i < f.tables.length) :
    Holds source (base + f.tableStart start i) f.tables[i].bytes := by
  have htables := h.right.part i (by simpa [tableBytes] using hi)
  rw [length_headBytes _ (by simp [tableBytes])] at htables
  simpa only [tableStart, tableBytes, List.getElem_map, Nat.add_assoc] using htables

theorem countAt_of_holds (hcount : f.tables.length ≤ 65535)
    (h : Holds source (base + start) (f.bytes start)) :
    countAt source (base + start) = f.tables.length := by
  rw [countAt, h.left.left.left.left.left.left.wordAt_eq, toNat_count hcount]

theorem namePlace_of_holds (hcount : f.tables.length ≤ 65535)
    (h : Holds source (base + start) (f.bytes start)) :
    namePlace source (base + start) =
      base + start + 4 + f.tables.length * 4 + f.tables.length * 8 := by
  rw [namePlace, countAt_of_holds hcount h]
  omega

theorem rangeOf_of_holds (hcount : f.tables.length ≤ 65535)
    (h : Holds source (base + start) (f.bytes start)) (i : Nat) (hi : i < f.tables.length) :
    rangeOf source (base + start) i = (f.tables[i].first, f.tables[i].last) := by
  have hrange := (holds_ranges h).item LineTable.length_rangeBytes i hi
  rw [rangeOf, countAt_of_holds hcount h, LineTable.rangeAt_of_holds hrange]

theorem tablePlace_of_holds (hend : start + f.length < UInt32.size)
    (h : Holds source (base + start) (f.bytes start)) (i : Nat) (hi : i < f.tables.length) :
    tablePlace source base (base + start) i = base + f.tableStart start i := by
  have hle := f.tableStart_add_le start i hi
  have hi' : i < (starts (start + f.headLength) (f.tableBytes.map List.length)).length := by
    simpa [tableBytes] using hi
  have hstart : (starts (start + f.headLength) (f.tableBytes.map List.length))[i] =
      f.tableStart start i := getElem_starts _ _ i hi'
  rw [tablePlace, (holds_offsets h).offset i hi' (by omega), hstart]

/-- The name is stored behind its length, and decoding it loses nothing. -/
theorem name_of_holds (hf : f.Storable) (hcount : f.tables.length ≤ 65535)
    (h : Holds source (base + start) (f.bytes start)) :
    let place := namePlace source (base + start)
    (byteAt source place).toNat = (Text.Lossy.encode f.name).length ∧
      bytesAt source (place + 1) (byteAt source place).toNat = Text.Lossy.encode f.name := by
  have hname := holds_name h
  rw [← namePlace_of_holds hcount h] at hname
  intro place
  have hfits : (Text.Lossy.encode f.name).length ≤ 255 := by
    rw [Text.Lossy.length_encode]
    exact hf.name
  have hlength : (byteAt source place).toNat = (Text.Lossy.encode f.name).length := by
    rw [show byteAt source place = UInt8.ofNat (Text.Lossy.encode f.name).length from
      hname.byteAt_eq 0 (by simp)]
    exact UInt8.toNat_ofNat_of_lt' (Nat.lt_succ_of_le hfits)
  refine ⟨hlength, ?_⟩
  rw [hlength]
  exact (hname.right (a := [_])).bytesAt_eq

/-- A file is stored where it was written. -/
theorem stored_of_holds (hf : f.Storable) (hcount : f.tables.length ≤ 65535)
    (hend : start + f.length < UInt32.size) (h : Holds source (base + start) (f.bytes start)) :
    stored source base (base + start) = f := by
  have htables : (List.range (countAt source (base + start))).map (fun i =>
      LineTable.stored source (tablePlace source base (base + start) i)
        (rangeOf source (base + start) i)) = f.tables := by
    rw [countAt_of_holds hcount h]
    apply List.ext_getElem
    · simp
    · intro i _ hi
      rw [List.getElem_map, List.getElem_range, tablePlace_of_holds hend h i hi,
        rangeOf_of_holds hcount h i hi]
      exact LineTable.stored_of_holds (hf.tables _ (List.getElem_mem hi)) (holds_table h i hi)
  calc stored source base (base + start)
    _ = ⟨f.name, f.tables⟩ := by
      rw [stored, htables, (name_of_holds hf hcount h).2, Text.Lossy.decode_encode]
    _ = f := rfl

theorem fits_of_holds (hf : f.Storable) (hcount : f.tables.length ≤ 65535)
    (hend : start + f.length < UInt32.size) (h : Holds source (base + start) (f.bytes start))
    (hlimit : base + start + f.length ≤ limit) :
    Fits source base limit (base + start) := by
  have hplace := namePlace_of_holds hcount h
  have hname := (name_of_holds hf hcount h).1
  have hhead : 4 + 12 * f.tables.length + (Text.Lossy.encode f.name).length + 1 ≤ f.length := by
    have halign := le_alignUp
      (4 + 12 * f.tables.length + (prefixedBytes (Text.Lossy.encode f.name)).length)
    rw [length_prefixedBytes] at halign
    rw [length, headLength, length_prefixedBytes]
    omega
  constructor
  · omega
  · have hzero := h.left.left.left.left.left.right.wordAt_eq
    rwa [length_wordBytes, width_uint16] at hzero
  · omega
  · omega
  · intro i hi
    rw [countAt_of_holds hcount h] at hi
    have hle := f.tableStart_add_le start i hi
    rw [tablePlace_of_holds hend h i hi, rangeOf_of_holds hcount h i hi]
    exact LineTable.fits_of_holds (hf.tables _ (List.getElem_mem hi)) (holds_table h i hi)
      (by omega)

end Written

end SourceFile

/-! ## Records -/

namespace SourceModule

theorem length_headBytes (files : List SourceFile) {offsets : List Nat}
    (h : offsets.length = files.length) :
    (headBytes files offsets).length = headLength files := by
  simp only [headBytes, headLength, length_aligned, List.length_append, length_wordBytes,
    length_offsetBytes, length_flatMap_of_size LineTable.length_rangeBytes,
    length_flatMap_of_size (fun t : LineTable => length_wordBytes t.segment), width_uint16, h]
  congr 1
  omega

theorem map_length_files (offsets : List Nat) (files : List SourceFile)
    (h : offsets.length = files.length) :
    (offsets.zipWith SourceFile.bytes files).map List.length = files.map (·.length) := by
  apply List.ext_getElem
  · simp [h]
  · intro i _ _
    simp

/-- Where file `i` begins. -/
def fileStart (files : List SourceFile) (i : Nat) : Nat :=
  headLength files + ((files.map (·.length)).take i).sum

theorem length_bytesOfFiles (files : List SourceFile) :
    (bytesOfFiles files).length = headLength files + (files.map (·.length)).sum := by
  rw [bytesOfFiles, List.length_append, length_headBytes _ (by simp), List.length_flatten,
    map_length_files _ _ (by simp)]

theorem fileStart_add_le (files : List SourceFile) (i : Nat) (hi : i < files.length) :
    fileStart files i + files[i].length ≤ (bytesOfFiles files).length := by
  have hsum := sum_take_add_le (files.map (·.length)) i (by simpa using hi)
  rw [List.getElem_map] at hsum
  rw [length_bytesOfFiles, fileStart]
  omega

section Written

variable {files : List SourceFile} {base : Nat}

theorem holds_offsets (h : Holds source base (bytesOfFiles files)) :
    Holds source (base + 4)
      (offsetBytes (starts (headLength files) (files.map (·.length)))) := by
  have hoffsets := h.left.left.left.left.right
  simpa only [List.length_append, length_wordBytes, width_uint16] using hoffsets

theorem holds_ranges (h : Holds source base (bytesOfFiles files)) :
    Holds source (base + 4 + files.length * 4)
      ((files.flatMap (·.tables)).flatMap LineTable.rangeBytes) := by
  have hranges := h.left.left.left.right
  simpa only [List.length_append, length_wordBytes, width_uint16, length_offsetBytes,
    length_starts, List.length_map, ← Nat.add_assoc] using hranges

theorem holds_segments (h : Holds source base (bytesOfFiles files)) :
    Holds source (base + 4 + files.length * 4 + (files.flatMap (·.tables)).length * 8)
      ((files.flatMap (·.tables)).flatMap fun t => wordBytes t.segment) := by
  have hsegments := h.left.left.right
  simpa only [List.length_append, length_wordBytes, width_uint16, length_offsetBytes,
    length_starts, List.length_map, length_flatMap_of_size LineTable.length_rangeBytes,
    ← Nat.add_assoc] using hsegments

theorem holds_file (h : Holds source base (bytesOfFiles files)) (i : Nat)
    (hi : i < files.length) :
    Holds source (base + fileStart files i) (files[i].bytes (fileStart files i)) := by
  have hi' : i < (starts (headLength files) (files.map (·.length))).length := by simpa using hi
  have hstart : (starts (headLength files) (files.map (·.length)))[i] = fileStart files i :=
    getElem_starts _ _ i hi'
  have hfiles := h.right.part i (by simpa using hi)
  rw [length_headBytes _ (by simp), map_length_files _ _ (by simp), List.getElem_zipWith,
    hstart, Nat.add_assoc] at hfiles
  exact hfiles

theorem fileCountAt_of_holds (hfiles : Storable files)
    (h : Holds source base (bytesOfFiles files)) : fileCountAt source base = files.length := by
  rw [fileCountAt, h.left.left.left.left.left.left.wordAt_eq, toNat_count hfiles.fileCount]

theorem extentCountAt_of_holds (hfiles : Storable files)
    (h : Holds source base (bytesOfFiles files)) :
    extentCountAt source base = (files.flatMap (·.tables)).length := by
  have hcount := h.left.left.left.left.left.right
  rw [length_wordBytes, width_uint16] at hcount
  rw [extentCountAt, hcount.wordAt_eq, toNat_count hfiles.tableCount]

theorem filePlace_of_holds (hfiles : Storable files)
    (h : Holds source base (bytesOfFiles files)) (i : Nat) (hi : i < files.length) :
    filePlace source base i = base + fileStart files i := by
  have hle := fileStart_add_le files i hi
  have hlength := hfiles.length
  have hi' : i < (starts (headLength files) (files.map (·.length))).length := by simpa using hi
  have hstart : (starts (headLength files) (files.map (·.length)))[i] = fileStart files i :=
    getElem_starts _ _ i hi'
  rw [filePlace, (holds_offsets h).offset i hi' (by omega), hstart]

theorem extentAt_of_holds (hfiles : Storable files)
    (h : Holds source base (bytesOfFiles files)) (i : Nat)
    (hi : i < (files.flatMap (·.tables)).length) :
    extentAt source base i = (files.flatMap fun f : SourceFile => f.tables)[i].extent := by
  have hrange := (holds_ranges h).item LineTable.length_rangeBytes i hi
  have hsegment := (holds_segments h).item (fun t => length_wordBytes t.segment) i hi
  rw [width_uint16] at hsegment
  rw [extentAt, fileCountAt_of_holds hfiles h, extentCountAt_of_holds hfiles h,
    LineTable.rangeAt_of_holds hrange, hsegment.wordAt_eq]
  rfl

/-- A file has no more line tables than the record. -/
theorem length_tables_le {f : SourceFile} (hf : f ∈ files) :
    f.tables.length ≤ (files.flatMap (·.tables)).length := by
  obtain ⟨before, after, rfl⟩ := List.append_of_mem hf
  simp only [List.flatMap_append, List.flatMap_cons, List.length_append]
  omega

/-- A record is stored where it was written. -/
theorem stored_of_holds (hfiles : Storable files) (h : Holds source base (bytesOfFiles files)) :
    stored source base = ofFiles files := by
  have hextents : (List.range (extentCountAt source base)).map (extentAt source base) =
      (files.flatMap (·.tables)).map LineTable.extent := by
    rw [extentCountAt_of_holds hfiles h]
    apply List.ext_getElem
    · simp
    · intro i _ hi
      rw [List.length_map] at hi
      rw [List.getElem_map, List.getElem_range, List.getElem_map, extentAt_of_holds hfiles h i hi]
  have hstored : (List.range (fileCountAt source base)).map (fun i =>
      SourceFile.stored source base (filePlace source base i)) = files := by
    rw [fileCountAt_of_holds hfiles h]
    apply List.ext_getElem
    · simp
    · intro i _ hi
      have hmem := List.getElem_mem hi
      have hcount := Nat.le_trans (length_tables_le hmem) hfiles.tableCount
      have hend := Nat.lt_of_le_of_lt (fileStart_add_le files i hi) hfiles.length
      rw [List.getElem_map, List.getElem_range, filePlace_of_holds hfiles h i hi]
      exact SourceFile.stored_of_holds (hfiles.each _ hmem) hcount hend (holds_file h i hi)
  rw [stored, hextents, hstored, ofFiles, List.map_flatMap]

theorem fits_of_holds (hfiles : Storable files) (h : Holds source base (bytesOfFiles files))
    (hlimit : base + (bytesOfFiles files).length ≤ limit) : Fits source base limit := by
  have hhead : 4 + 4 * files.length + 10 * (files.flatMap (·.tables)).length ≤
      (bytesOfFiles files).length := by
    have halign := le_alignUp (4 + 4 * files.length + 10 * (files.flatMap (·.tables)).length)
    rw [length_bytesOfFiles, headLength]
    omega
  constructor
  · omega
  · rw [fileCountAt_of_holds hfiles h, extentCountAt_of_holds hfiles h]
    omega
  · intro i hi
    rw [fileCountAt_of_holds hfiles h] at hi
    have hmem := List.getElem_mem hi
    have hcount := Nat.le_trans (length_tables_le hmem) hfiles.tableCount
    have hle := fileStart_add_le files i hi
    have hend := Nat.lt_of_le_of_lt hle hfiles.length
    rw [filePlace_of_holds hfiles h i hi]
    exact SourceFile.fits_of_holds (hfiles.each _ hmem) hcount hend (holds_file h i hi)
      (by omega)

end Written

variable {c : Cursor}

/-- A record that fits is read. -/
theorem read_of_fits (hc : c.Addressable) (h : Fits c.source c.pos c.limit) :
    ∃ c', read c = .ok (stored c.source c.pos) c' := by
  obtain ⟨⟨hstart, -, hsource⟩, hnameable⟩ := hc
  have hlimit : c.limit ≤ Cursor.maxPosition := by omega
  have hfiles : (wordAt UInt16 c.source c.pos).toNat = fileCountAt c.source c.pos := rfl
  have hextents : (wordAt UInt16 c.source (c.pos + 2)).toNat = extentCountAt c.source c.pos := rfl
  have hhead := h.head
  have htables := h.tables
  have files := (decides_files hlimit hstart).map fun files =>
    SourceModule.mk (stored c.source c.pos).extents files
  -- behind the segment numbers of the extents the reader jumps to the file tables
  obtain ⟨pos, hread⟩ := files.ok h.files (c.pos + 4 + fileCountAt c.source c.pos * 4 +
    extentCountAt c.source c.pos * 8 + extentCountAt c.source c.pos * 2)
  refine ⟨c.moveTo pos, ?_⟩
  simp only [read_eq_readPlain, readPlain, Read.word_bind_eq_ok, Read.position_bind_eq_ok,
    Read.words_bind_eq_ok, Read.table_bind_eq_ok]
  simp only [width_uint16, width_uint32, Cursor.pos_moveTo, Cursor.source_moveTo,
    Cursor.limit_moveTo, Cursor.moveTo_moveTo, show c.pos + 2 + 2 = c.pos + 4 from rfl,
    zipWith_eq_extents hfiles hextents]
  rw [hfiles, hextents]
  exact ⟨by omega, hhead, by omega, by omega, by omega, hread⟩

/-- A record is read wherever it was written. -/
theorem read_of_holds {files : List SourceFile} (hc : c.Addressable) (hfiles : Storable files)
    (h : Holds c.source c.pos (bytesOfFiles files))
    (hlimit : c.pos + (bytesOfFiles files).length ≤ c.limit) :
    ∃ c', read c = .ok (ofFiles files) c' := by
  have hread := read_of_fits hc (fits_of_holds hfiles h hlimit)
  rwa [stored_of_holds hfiles h] at hread

/-- **Writing and reading.** The record of any files that can be written is read, as those files
in their order, and its extents are the code that their line tables claim. -/
theorem read_bytesOfFiles (files : List SourceFile) (hfiles : Storable files) :
    ∃ m c', read (Cursor.ofBytes (bytesOfFiles files).toByteArray) = .ok m c' ∧
      m.files = files ∧
      m.extents = files.flatMap fun f => f.tables.map fun t => ⟨t.segment, t.first, t.last⟩ := by
  have hsize : (bytesOfFiles files).toByteArray.size = (bytesOfFiles files).length := by simp
  have addressable : (Cursor.ofBytes (bytesOfFiles files).toByteArray).Addressable := by
    refine ⟨Cursor.inside_ofBytes _, ?_⟩
    show (bytesOfFiles files).toByteArray.size ≤ Cursor.maxPosition
    have hlength := hfiles.length
    have hmax : UInt32.size ≤ Cursor.maxPosition := by decide
    omega
  obtain ⟨c', hread⟩ := read_of_holds addressable hfiles (Holds.toByteArray _)
    (show 0 + (bytesOfFiles files).length ≤ (bytesOfFiles files).toByteArray.size by omega)
  exact ⟨_, c', hread, rfl, rfl⟩

/-- A file with a name that is not ASCII and an empty line table, one without line tables, and one
whose table repeats an offset. -/
def mixedFiles : List SourceFile :=
  [⟨"größe.c", [⟨1, 256, 511, #[256, 300], #[7, 9]⟩, ⟨2, 0, 0, #[], #[]⟩]⟩,
    ⟨"", []⟩,
    ⟨"b.h", [⟨1, 512, 700, #[520, 520, 4294967295], #[3, 4, 65535]⟩]⟩]

theorem read_bytesOfFiles_mixedFiles :
    Storable mixedFiles ∧
      ∃ m c', read (Cursor.ofBytes (bytesOfFiles mixedFiles).toByteArray) = .ok m c' ∧
        m.files = mixedFiles ∧ m.extents = [⟨1, 256, 511⟩, ⟨2, 0, 0⟩, ⟨1, 512, 700⟩] := by
  have storable : Storable mixedFiles := by decide +kernel
  exact ⟨storable, read_bytesOfFiles mixedFiles storable⟩

end SourceModule

end CodeView
