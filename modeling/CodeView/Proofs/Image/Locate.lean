import CodeView.Image.Locate
import CodeView.Proofs.Written

/-!
# The debug directory of an image

The debug data directory of an image stands for some bytes of the file, which are cut into entries
of 28 bytes; what is left at the end is no entry. `locate_first_usable` says by these bytes alone
which entry counts: the first one for CodeView information that has a place in the file. Nothing
that other entries hold has a say in it, and the bytes are never too few for their entries.
-/

namespace CodeView.Image

variable {source : ByteArray} {headers : Headers} {directory : DataDirectory}
  {extent available : Extent} {bytes : ByteArray} {address : Nat}

/-! ## What the headers say -/

section Checks

variable {ε α β : Type} {c : Prop} [Decidable c] {e : ε} {k : α → Except ε β} {x : Except ε β}
  {b : β}

theorem demand_eq_ok : (if c then x else throw e >>= k) = .ok b ↔ c ∧ x = .ok b := by
  by_cases h : c
  · simp [h]
  · simp only [h, false_and, iff_false]
    exact nofun

theorem refuse_eq_ok : (if c then throw e >>= k else x) = .ok b ↔ ¬ c ∧ x = .ok b := by
  by_cases h : c
  · simp only [h, not_true, false_and, iff_false]
    exact nofun
  · simp [h]

end Checks

/-- Where the optional header begins. -/
def optionalHeader (source : ByteArray) : Nat :=
  natAt source 0x3c 4 + 24

/-- The fields that addresses are computed from are those of the optional header. The load address
has as many bits as the image is wide, the base of the code has 32 bits in both widths. -/
structure Headers.Stored (headers : Headers) (source : ByteArray) (width : Width) : Prop where
  imageBase : headers.imageBase =
    match width with
    | .narrow => (wordAt UInt32 source (optionalHeader source + 28)).toUInt64
    | .wide => wordAt UInt64 source (optionalHeader source + 24)
  baseOfCode : headers.baseOfCode = wordAt UInt32 source (optionalHeader source + 20)

theorem toUInt64_wordAt (source : ByteArray) (position : Nat) :
    (wordAt UInt32 source position).toUInt64 = .ofNat (natAt source position 4) := by
  have hlt : natAt source position 4 < 256 ^ 4 := natAt_lt source position 4
  rw [← UInt64.toNat_inj, UInt32.toNat_toUInt64, UInt64.toNat_ofNat_of_lt' (by simp only [UInt64.size]; omega)]
  exact Nat.mod_eq_of_lt hlt

theorem Headers.stored_of_read {width : Width} (h : Headers.read width source = .ok headers) :
    headers.Stored source width := by
  simp only [Headers.read, demand_eq_ok, refuse_eq_ok] at h
  obtain ⟨-, -, -, -, -, h⟩ := h
  cases h
  cases width with
  | narrow => exact ⟨(toUInt64_wordAt _ _).symm, rfl⟩
  | wide => exact ⟨rfl, rfl⟩

/-- Images of both widths are read, and no other files. -/
theorem stored_of_readHeaders (h : readHeaders source = .ok headers) :
    FileKind.detect source = .ok .portable32 ∧ headers.Stored source .narrow ∨
      FileKind.detect source = .ok .portable64 ∧ headers.Stored source .wide := by
  have read {width : Width} {cause : HeaderError → ImageError}
      (h : (Headers.read width source).mapError cause = .ok headers) :
      headers.Stored source width := by
    cases hread : Headers.read width source with
    | error e =>
      rw [hread] at h
      cases h
    | ok found =>
      rw [hread] at h
      cases h
      exact Headers.stored_of_read hread
  unfold readHeaders at h
  split at h
  case h_1 => cases h
  case h_2 hkind => exact .inl ⟨hkind, read h⟩
  case h_3 hkind => exact .inr ⟨hkind, read h⟩
  case h_4 => cases h

/-! ## The bytes of the directory -/

/-- What a stretch of a file holds. -/
def Extent.content (source : ByteArray) (extent : Extent) : ByteArray :=
  source.extract extent.position (extent.position + extent.size)

/-- The headers of an image are sound, and its debug data directory stands for these bytes. -/
structure HasDirectory (source : ByteArray) (headers : Headers) (bytes : ByteArray) : Prop where
  read : readHeaders source = .ok headers
  mapped : ∃ directory extent, headers.debugDirectory? = some directory ∧
    mapDirectory source headers directory = .ok extent ∧ extent.content source = bytes

theorem Section.fits_of_map? {s : Section} (h : s.map? source address = some available) :
    available.position + available.size ≤ source.size := by
  simp only [Section.map?] at h
  split at h
  case isTrue hmapped =>
    obtain ⟨-, hdistance, -, hsource⟩ := hmapped
    cases h
    show s.filePosition + _ + (_ - _) ≤ source.size
    omega
  case isFalse => cases h

/-- No part of a directory lies outside the file. -/
theorem fits_of_mapDirectory (h : mapDirectory source headers directory = .ok extent) :
    extent.position + extent.size ≤ source.size := by
  unfold mapDirectory at h
  split at h
  case h_1 => cases h
  case h_2 available hfound =>
    obtain ⟨s, -, hmap⟩ := List.exists_of_findSome?_eq_some hfound
    have hfits := Section.fits_of_map? hmap
    split at h
    case isTrue => cases h
    case isFalse hsize =>
      cases h
      exact Nat.le_trans (Nat.add_le_add_left (Nat.le_of_not_lt hsize) _) hfits

theorem Extent.size_content (h : extent.position + extent.size ≤ source.size) :
    (extent.content source).size = extent.size := by
  rw [Extent.content, ByteArray.size_extract]
  omega

/-! ## The entries -/

/-- Entry number `i` of a directory. -/
def entryAt (bytes : ByteArray) (i : Nat) : DebugEntry :=
  DebugEntry.stored bytes (28 * i)

/-- All entries of a directory, without an incomplete one at its end. -/
def entriesOf (bytes : ByteArray) : List DebugEntry :=
  (List.range (bytes.size / 28)).map (entryAt bytes)

/-- Entry number `i` is one for CodeView information and has a place in the file. -/
def Leads (bytes : ByteArray) (i : Nat) : Prop :=
  (entryAt bytes i).type = 2 ∧ (entryAt bytes i).position ≠ 0

instance (bytes : ByteArray) (i : Nat) : Decidable (Leads bytes i) :=
  inferInstanceAs (Decidable (_ ∧ _))

theorem isUsable_iff {i : Nat} : (entryAt bytes i).isUsable = true ↔ Leads bytes i := by
  simp [DebugEntry.isUsable, DebugEntry.codeView, Leads]

theorem DebugEntry.stored_congr {target : ByteArray} {p q : Nat}
    (h : SameBytes source target p q DebugEntry.width) : stored target q = stored source p := by
  have field (skip : Nat) (hskip : skip + 4 ≤ DebugEntry.width) :
      natAt target (q + skip) 4 = natAt source (p + skip) 4 := natAt_congr (h.part skip hskip)
  simp only [stored, field 12 (by decide), field 16 (by decide), field 24 (by decide)]

/-- The bytes are enough for as many entries as are taken from them. -/
theorem debugEntries_eq (h : extent.position + extent.size ≤ source.size) :
    debugEntries source extent = .ok (entriesOf (extent.content source)) := by
  have henough : extent.size / DebugEntry.width * DebugEntry.width ≤ extent.size :=
    Nat.div_mul_le_self _ _
  rw [debugEntries, takeEntries, if_pos henough, entriesOf, Extent.size_content h]
  refine congrArg Except.ok (List.map_congr_left fun i hi => ?_)
  have hi : i < extent.size / 28 := List.mem_range.1 hi
  have hwidth : DebugEntry.width = 28 := rfl
  have whole : SameBytes source (extent.content source) extent.position 0 extent.size := .extract h
  have entry : SameBytes source (extent.content source) (extent.position + 28 * i) (0 + 28 * i)
      DebugEntry.width := whole.part (28 * i) (by omega)
  rw [Nat.zero_add] at entry
  rw [entryAt, DebugEntry.stored_congr entry, hwidth, Nat.mul_comm]

/-! ## What is found -/

/-- What an entry says of its blob, in an image with these headers. -/
def Headers.blobOf (headers : Headers) (entry : DebugEntry) : BlobLocation :=
  ⟨entry.position, entry.size, headers.imageBase, headers.baseOfCode⟩

/-- A search that goes through the bytes of the directory. -/
theorem locate_eq (source : ByteArray) :
    locate source = (readHeaders source).bind fun headers =>
      match headers.debugDirectory? with
      | none => .ok none
      | some directory => (mapDirectory source headers directory).map fun extent =>
          ((entriesOf (extent.content source)).find? DebugEntry.isUsable).map headers.blobOf := by
  unfold locate
  cases readHeaders source with
  | error e => rfl
  | ok headers =>
    simp only [bind, Except.bind]
    cases headers.debugDirectory? with
    | none => rfl
    | some directory =>
      cases hmap : mapDirectory source headers directory with
      | error e => simp only [hmap, Except.map]
      | ok extent =>
        simp only [hmap, debugEntries_eq (fits_of_mapDirectory hmap), Except.map]
        rfl

theorem locate_of_debugDirectory?_eq_none (hread : readHeaders source = .ok headers)
    (hnone : headers.debugDirectory? = none) : locate source = .ok none := by
  rw [locate_eq, hread, Except.bind, hnone]

theorem HasDirectory.locate_eq (h : HasDirectory source headers bytes) :
    locate source = .ok (((entriesOf bytes).find? DebugEntry.isUsable).map headers.blobOf) := by
  obtain ⟨directory, extent, hdirectory, hmap, rfl⟩ := h.mapped
  simp only [Image.locate_eq, h.read, Except.bind, hdirectory, hmap, Except.map]

theorem readHeaders_ne_truncated : readHeaders source ≠ .error .truncatedDirectory := by
  have malformed (width : Width) :
      (Headers.read width source).mapError ImageError.malformed ≠ .error .truncatedDirectory := by
    cases Headers.read width source <;> exact nofun
  unfold readHeaders
  split
  · exact nofun
  · exact malformed _
  · exact malformed _
  · exact nofun

theorem mapDirectory_ne_truncated :
    mapDirectory source headers directory ≠ .error .truncatedDirectory := by
  unfold mapDirectory
  split
  · exact nofun
  · split <;> exact nofun

/-- What is found is an entry of a directory. -/
theorem exists_entry_of_locate {blob : BlobLocation} (h : locate source = .ok (some blob)) :
    ∃ headers : Headers, ∃ bytes i, blob = headers.blobOf (entryAt bytes i) := by
  rw [locate_eq] at h
  cases hread : readHeaders source with
  | error e => simp [hread, Except.bind] at h
  | ok headers =>
    simp only [hread, Except.bind] at h
    split at h
    case h_1 => simp at h
    case h_2 directory _ =>
      cases hmap : mapDirectory source headers directory with
      | error e => simp [hmap, Except.map] at h
      | ok extent =>
        simp only [hmap, Except.map, Except.ok.injEq, Option.map_eq_some_iff] at h
        obtain ⟨entry, hfind, rfl⟩ := h
        obtain ⟨i, -, rfl⟩ := List.mem_map.1 (List.mem_of_find?_eq_some hfind)
        exact ⟨headers, _, i, rfl⟩

theorem locate_ne_truncated : locate source ≠ .error .truncatedDirectory := by
  rw [locate_eq]
  cases hread : readHeaders source with
  | error e =>
    intro h
    cases h
    exact readHeaders_ne_truncated hread
  | ok headers =>
    simp only [Except.bind]
    split
    · exact nofun
    case h_2 directory _ =>
      cases hmap : mapDirectory source headers directory with
      | error e =>
        intro h
        cases h
        exact mapDirectory_ne_truncated hmap
      | ok extent => exact nofun

/-! ## The first usable entry -/

theorem find?_entriesOf_eq_some {i : Nat} (hi : i < bytes.size / 28) (hleads : Leads bytes i)
    (hfirst : ∀ j < i, ¬ Leads bytes j) :
    (entriesOf bytes).find? DebugEntry.isUsable = some (entryAt bytes i) := by
  have hindex : (List.range (bytes.size / 28)).find? (DebugEntry.isUsable ∘ entryAt bytes) =
      some i := by
    rw [List.find?_range_eq_some]
    refine ⟨isUsable_iff.2 hleads, List.mem_range.2 hi, fun j hj => ?_⟩
    have hnot := hfirst j hj
    rw [← isUsable_iff] at hnot
    simpa using hnot
  rw [entriesOf, List.find?_map, hindex, Option.map_some]

theorem find?_entriesOf_eq_none (h : ∀ i < bytes.size / 28, ¬ Leads bytes i) :
    (entriesOf bytes).find? DebugEntry.isUsable = none := by
  simpa [entriesOf, isUsable_iff] using h

/-- **The first usable entry of the debug directory counts.** In an image of either width whose
headers are read, an entry counts if it is the first one for CodeView information that has a place
in the file. It gives the position and the size of the blob, and the headers give the rest. There
is no blob if there is no such entry or no debug directory. Images that differ in other entries, or
behind the last whole one, have the same blob, and no directory is too short for its entries. -/
theorem locate_first_usable (source : ByteArray) :
    locate source ≠ .error .truncatedDirectory ∧
    ∀ headers, readHeaders source = .ok headers →
      (FileKind.detect source = .ok .portable32 ∧ headers.Stored source .narrow ∨
        FileKind.detect source = .ok .portable64 ∧ headers.Stored source .wide) ∧
      (headers.debugDirectory? = none → locate source = .ok none) ∧
      ∀ bytes, HasDirectory source headers bytes →
        (∀ i < bytes.size / 28, Leads bytes i → (∀ j < i, ¬ Leads bytes j) →
          locate source = .ok (some ⟨(entryAt bytes i).position, (entryAt bytes i).size,
            headers.imageBase, headers.baseOfCode⟩)) ∧
        ((∀ i < bytes.size / 28, ¬ Leads bytes i) → locate source = .ok none) ∧
        ∀ source' headers' bytes', HasDirectory source' headers' bytes' →
          headers'.imageBase = headers.imageBase → headers'.baseOfCode = headers.baseOfCode →
          (entriesOf bytes').filter DebugEntry.isUsable =
            (entriesOf bytes).filter DebugEntry.isUsable →
          locate source' = locate source := by
  refine ⟨locate_ne_truncated, fun headers hread => ⟨stored_of_readHeaders hread,
    locate_of_debugDirectory?_eq_none hread, fun bytes h => ⟨?_, ?_, ?_⟩⟩⟩
  · intro i hi hleads hfirst
    rw [h.locate_eq, find?_entriesOf_eq_some hi hleads hfirst]
    rfl
  · intro hnone
    rw [h.locate_eq, find?_entriesOf_eq_none hnone]
    rfl
  · intro source' headers' bytes' h' himage hcode hsame
    have hblob : headers'.blobOf = headers.blobOf := by
      unfold Headers.blobOf
      rw [himage, hcode]
    rw [h.locate_eq, h'.locate_eq, ← List.head?_filter, ← List.head?_filter, hsame, hblob]

/-- The headers of an image of 32 bits, behind which there is a debug directory of a size. -/
def headerBytes (size : Nat) : List UInt8 :=
  let zeros (count : Nat) : List UInt8 := List.replicate count 0
  let fields (values : List Nat) : List UInt8 := values.flatMap (natBytes · 4)
  let dosHeader := [0x4d, 0x5a] ++ zeros 58 ++ fields [0x40]
  let fileHeader := [0x50, 0x45, 0, 0, 0x4c, 1, 1, 0] ++ zeros 12 ++ [152, 0, 0x0f, 1]
  let optionalHeader := [0x0b, 1] ++ zeros 18 ++ fields [0x1000, 0, 0x400000] ++ zeros 60 ++
    fields [7] ++ zeros 48 ++ fields [0x2000, size]
  let sectionHeader := zeros 8 ++ fields [size, 0x2000, size, 280] ++ zeros 16
  dosHeader ++ fileHeader ++ optionalHeader ++ sectionHeader

theorem length_headerBytes (size : Nat) : (headerBytes size).length = 280 := by
  simp only [headerBytes, List.length_append, List.length_cons, List.length_nil,
    List.length_replicate, List.flatMap_cons, List.flatMap_nil, length_natBytes]

/-- An image whose debug directory holds the given bytes. -/
def imageWith (directory : List UInt8) : ByteArray :=
  ⟨(headerBytes directory.length ++ directory).toArray⟩

theorem content_imageWith (directory : List UInt8) :
    (⟨280, directory.length⟩ : Extent).content (imageWith directory) = ⟨directory.toArray⟩ := by
  apply ByteArray.ext
  rw [Extent.content, ByteArray.data_extract, imageWith, List.extract_toArray,
    List.extract_eq_take_drop, List.drop_left' (length_headerBytes _)]
  simp

/-- An entry of a debug directory. -/
def entryBytes (type size position : Nat) : List UInt8 :=
  List.replicate 12 0 ++ [type, size, 0, position].flatMap (natBytes · 4)

/-- An entry for something else, one without a place, two that lead to blobs, and a part of one. -/
def mixedDirectory : List UInt8 :=
  entryBytes 4 9 700 ++ entryBytes 2 8 0 ++ entryBytes 2 63 300 ++ entryBytes 2 5 900 ++ [1, 2, 3]

/-- The two entries that lead to blobs, with another one between them. -/
def shortDirectory : List UInt8 :=
  entryBytes 2 63 300 ++ entryBytes 3 1 1 ++ entryBytes 2 5 900

/-- The headers of such an image. -/
def headersWith (size : Nat) : Headers where
  imageBase := 0x400000
  baseOfCode := 0x1000
  directories := List.replicate 6 ⟨0, 0⟩ ++ [⟨0x2000, size⟩]
  sections := [⟨size, 0x2000, size, 280⟩]

theorem locate_first_usable_mixedDirectory :
    HasDirectory (imageWith mixedDirectory) (headersWith 115) ⟨mixedDirectory.toArray⟩ ∧
      HasDirectory (imageWith shortDirectory) (headersWith 84) ⟨shortDirectory.toArray⟩ ∧
      locate (imageWith mixedDirectory) = .ok (some ⟨300, 63, 0x400000, 0x1000⟩) ∧
      locate (imageWith shortDirectory) = locate (imageWith mixedDirectory) := by
  have mixed : HasDirectory (imageWith mixedDirectory) (headersWith 115)
      ⟨mixedDirectory.toArray⟩ :=
    ⟨by decide +kernel, ⟨0x2000, 115⟩, ⟨280, 115⟩, by decide +kernel, by decide +kernel,
      content_imageWith mixedDirectory⟩
  have short : HasDirectory (imageWith shortDirectory) (headersWith 84)
      ⟨shortDirectory.toArray⟩ :=
    ⟨by decide +kernel, ⟨0x2000, 84⟩, ⟨280, 84⟩, by decide +kernel, by decide +kernel,
      content_imageWith shortDirectory⟩
  obtain ⟨first, -, same⟩ := ((locate_first_usable (imageWith mixedDirectory)).2 _ mixed.read).2.2
    _ mixed
  exact ⟨mixed, short, first 2 (by decide +kernel) (by decide +kernel) (by decide +kernel),
    same _ _ _ short rfl rfl (by decide +kernel)⟩

end CodeView.Image
