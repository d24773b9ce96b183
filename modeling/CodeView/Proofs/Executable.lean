import CodeView.Proofs.Image.Locate
import CodeView.Proofs.Parser.Shortage
import CodeView.Proofs.Relocation.Blob

/-!
# The blob of an image

An image declares where its blob begins and how long it is. Only the bytes from there on that the
image has are read: `Executable.ofImage_declared` says that the parser sees them as if they stood
alone, with every position moved to where they stand in the image. A directory entry that points
past the declared end finds no content, even where the image goes on.
-/

namespace CodeView

namespace Image

/-- Where the blob begins and how long it is are numbers of 32 bits. -/
structure BlobLocation.Narrow (blob : BlobLocation) : Prop where
  offset : blob.offset < 256 ^ 4
  size : blob.size < 256 ^ 4

theorem narrow_of_locate {source : ByteArray} {blob : BlobLocation}
    (h : locate source = .ok (some blob)) : blob.Narrow := by
  obtain ⟨headers, bytes, i, rfl⟩ := exists_entry_of_locate h
  exact ⟨natAt_lt _ _ 4, natAt_lt _ _ 4⟩

end Image

namespace Parser

/-- With other bytes before a blob the positions move by their number. -/
theorem parse_moved_append (p : Parser) (before blob : ByteArray)
    (hsize : before.size + blob.size < 0x8000000000000000) :
    p.parse (before ++ blob) before.size = DebugInfo.shiftResult before.size (p.parse blob 0) := by
  have hlength : (before ++ blob).size = blob.size + before.size := by
    rw [ByteArray.size_append, Nat.add_comm]
  have moved := parse_moved (p := p) (sameFrame_append before blob 0) fun entry =>
    outcome_eq_of_sameBytes hlength (fun _ => .append_right before blob _ _) (.inr (by omega))
  rwa [Nat.zero_add] at moved

theorem parse_of_lt (p : Parser) {source : ByteArray} {base : Nat} (h : source.size < base) :
    p.parse source base = .error (.truncated "CodeView header" 0 0) := by
  simp only [parse, readFrame_of_lt h, bind, Except.bind]

end Parser

namespace Executable

variable {p : Parser} {source source' : ByteArray} {blob : Image.BlobLocation}

/-- Where the declared bytes end, or the image if it ends first. -/
def declaredEnd (source : ByteArray) (blob : Image.BlobLocation) : Nat :=
  min (blob.offset + blob.size) source.size

/-- The bytes that an image declares as its blob, as far as it has them. -/
def declaredBytes (source : ByteArray) (blob : Image.BlobLocation) : ByteArray :=
  source.extract blob.offset (declaredEnd source blob)

theorem offset_le_declaredEnd (h : blob.offset ≤ source.size) :
    blob.offset ≤ declaredEnd source blob :=
  Nat.le_min.2 ⟨Nat.le_add_right _ _, h⟩

theorem declaredEnd_le : declaredEnd source blob ≤ source.size :=
  Nat.min_le_right _ _

/-- The declared bytes stand behind all those that are in front of them in the image. -/
theorem visibleBytes_eq (h : blob.offset ≤ source.size) :
    visibleBytes source blob = source.extract 0 blob.offset ++ declaredBytes source blob := by
  rw [declaredBytes, ByteArray.extract_append_extract, Nat.zero_min,
    Nat.max_eq_right (offset_le_declaredEnd h)]
  rfl

/-- The parser sees the declared bytes as if they stood alone. -/
theorem parse_visibleBytes (hnarrow : blob.Narrow) (hoffset : blob.offset ≤ source.size) :
    p.parse (visibleBytes source blob) blob.offset =
      DebugInfo.shiftResult blob.offset (p.parse (declaredBytes source blob) 0) := by
  have hbefore : (source.extract 0 blob.offset).size = blob.offset := by
    rw [ByteArray.size_extract, Nat.min_eq_left hoffset, Nat.sub_zero]
  have hdeclared : (declaredBytes source blob).size ≤ blob.offset + blob.size := by
    simp only [declaredBytes, declaredEnd, ByteArray.size_extract]
    omega
  have hsize : (source.extract 0 blob.offset).size + (declaredBytes source blob).size <
      0x8000000000000000 := by
    have := hnarrow.offset
    have := hnarrow.size
    omega
  have hmoved := p.parse_moved_append _ _ hsize
  rwa [hbefore, ← visibleBytes_eq hoffset] at hmoved

theorem parse_visibleBytes_of_lt (h : source.size < blob.offset) :
    p.parse (visibleBytes source blob) blob.offset =
      .error (.truncated "CodeView header" 0 0) := by
  apply Parser.parse_of_lt
  rw [visibleBytes, ByteArray.size_extract]
  omega

/-- What the parser makes of the visible bytes, with the addresses of the image. -/
def ofResult (blob : Image.BlobLocation) : Except FormatError DebugInfo → Except LoadError Executable
  | .ok info => .ok ⟨blob.imageBase, blob.baseOfCode, info⟩
  | .error e => .error (.format e)

theorem ofImage_eq (hlocate : Image.locate source = .ok (some blob)) :
    ofImage p source = ofResult blob (p.parse (visibleBytes source blob) blob.offset) := by
  rw [ofImage, hlocate]
  rfl

theorem ofImage_of_le (hlocate : Image.locate source = .ok (some blob))
    (hoffset : blob.offset ≤ source.size) :
    ofImage p source = ofResult blob
      (DebugInfo.shiftResult blob.offset (p.parse (declaredBytes source blob) 0)) := by
  rw [ofImage_eq hlocate, parse_visibleBytes (Image.narrow_of_locate hlocate) hoffset]

theorem ofImage_of_lt (hlocate : Image.locate source = .ok (some blob))
    (hoffset : source.size < blob.offset) :
    ofImage p source = .error (.format (.truncated "CodeView header" 0 0)) := by
  rw [ofImage_eq hlocate, parse_visibleBytes_of_lt hoffset]
  rfl

/-- Two images with one location are alike if they have the same declared bytes. -/
theorem ofImage_congr (hlocate : Image.locate source = .ok (some blob))
    (hlocate' : Image.locate source' = .ok (some blob))
    (hend : declaredEnd source' blob = declaredEnd source blob)
    (hbytes : declaredBytes source' blob = declaredBytes source blob) :
    ofImage p source' = ofImage p source := by
  -- the ends agree, so either both images reach up to the blob or neither does
  by_cases hoffset : blob.offset ≤ source.size
  · have hoffset' : blob.offset ≤ source'.size := by
      have := offset_le_declaredEnd hoffset
      have : declaredEnd source' blob ≤ source'.size := declaredEnd_le
      omega
    rw [ofImage_of_le hlocate hoffset, ofImage_of_le hlocate' hoffset', hbytes]
  · have hoffset' : source'.size < blob.offset := by
      simp only [declaredEnd] at hend
      omega
    rw [ofImage_of_lt hlocate (Nat.lt_of_not_le hoffset), ofImage_of_lt hlocate' hoffset']

/-- **Only the declared bytes of an image are read.** An image is loaded exactly if its blob begins
in it and the parser accepts the declared bytes standing alone; the result, or the error, is that of
the declared bytes with the positions moved to where they stand, and the addresses are those that
the headers give. A blob behind the image is reported as missing. Two images that declare the same
bytes at the same place are the same to every query. -/
theorem ofImage_declared (p : Parser) (source : ByteArray) (blob : Image.BlobLocation)
    (hlocate : Image.locate source = .ok (some blob)) :
    ((∃ exe, ofImage p source = .ok exe) ↔
      blob.offset ≤ source.size ∧ ∃ info, p.parse (declaredBytes source blob) 0 = .ok info) ∧
    (blob.offset ≤ source.size →
      (∀ info, p.parse (declaredBytes source blob) 0 = .ok info →
        ofImage p source = .ok ⟨blob.imageBase, blob.baseOfCode, info.shift blob.offset⟩) ∧
      ∀ e, p.parse (declaredBytes source blob) 0 = .error e →
        ofImage p source = .error (.format (e.shift blob.offset))) ∧
    (source.size < blob.offset →
      ofImage p source = .error (.format (.truncated "CodeView header" 0 0))) ∧
    ∀ source', Image.locate source' = .ok (some blob) →
      declaredEnd source' blob = declaredEnd source blob →
      declaredBytes source' blob = declaredBytes source blob →
        ofImage p source' = ofImage p source := by
  refine ⟨?_, ?_, ofImage_of_lt hlocate, fun _ => ofImage_congr hlocate⟩
  · by_cases hoffset : blob.offset ≤ source.size
    · rw [ofImage_of_le hlocate hoffset]
      cases p.parse (declaredBytes source blob) 0 <;>
        simp [hoffset, DebugInfo.shiftResult, Except.map, Except.mapError, ofResult]
    · rw [ofImage_of_lt hlocate (Nat.lt_of_not_le hoffset)]
      simp [hoffset]
  · intro hoffset
    rw [ofImage_of_le hlocate hoffset]
    constructor
    · intro info hparse
      rw [hparse]
      rfl
    · intro e hparse
      rw [hparse]
      rfl

/-- Headers of an image that declare 63 bytes behind them as its blob. -/
def declaringHeaders : List UInt8 :=
  Image.headerBytes 28 ++ Image.entryBytes 2 63 308

/-- A blob with a list of libraries, another one that would stand behind it, and global symbols that
are cut off. -/
def declaredBlob : List UInt8 :=
  [0x4e, 0x42, 0x30, 0x39, 8, 0, 0, 0,
    16, 0, 12, 0, 3, 0, 0, 0, 0, 0, 0, 0, 0, 0, 0, 0,
    0x28, 1, 255, 255, 60, 0, 0, 0, 3, 0, 0, 0,
    0x28, 1, 255, 255, 63, 0, 0, 0, 2, 0, 0, 0,
    0x29, 1, 255, 255, 60, 0, 0, 0, 0, 0, 0, 0,
    0, 1, 97]

/-- The image goes on behind its blob. -/
def declaringImage (rest : List UInt8) : ByteArray :=
  ⟨(declaringHeaders ++ declaredBlob ++ rest).toArray⟩

theorem declaredBytes_declaringImage (rest : List UInt8) :
    declaredEnd (declaringImage rest) ⟨308, 63, 0x400000, 0x1000⟩ = 371 ∧
      declaredBytes (declaringImage rest) ⟨308, 63, 0x400000, 0x1000⟩ =
        ⟨declaredBlob.toArray⟩ := by
  have hheaders : declaringHeaders.length = 308 := by decide +kernel
  have hblob : declaredBlob.length = 63 := rfl
  have hend : declaredEnd (declaringImage rest) ⟨308, 63, 0x400000, 0x1000⟩ = 371 := by
    simp only [declaredEnd, declaringImage, ByteArray.size, List.size_toArray, List.length_append,
      hheaders, hblob]
    omega
  have hpart : ((declaringHeaders ++ declaredBlob ++ rest).drop 308).take 63 = declaredBlob := by
    rw [List.append_assoc, List.drop_left' hheaders, List.take_left' hblob]
  refine ⟨hend, ByteArray.ext ?_⟩
  rw [declaredBytes, hend, ByteArray.data_extract, declaringImage, List.extract_toArray,
    List.extract_eq_take_drop]
  exact congrArg List.toArray hpart

theorem ofImage_declared_declaringImage :
    let blob : Image.BlobLocation := ⟨308, 63, 0x400000, 0x1000⟩
    let info : DebugInfo :=
      ⟨.nb09, 308, ⟨16, 12, 3, 0, 0⟩, [⟨0, ⟨.libraries, 0xffff, 60, 3⟩, .libraries ["", "a"]⟩],
        [⟨1, .libraries, 0xffff, .truncated "subsection content" 2 0⟩,
          ⟨2, .globalSymbols, 0xffff, .outOfBounds 368 2 368⟩]⟩
    Image.locate (declaringImage [1, 98]) = .ok (some blob) ∧
      ofImage .default (declaringImage [1, 98]) = .ok ⟨0x400000, 0x1000, info⟩ ∧
      ofImage .default (declaringImage []) = ofImage .default (declaringImage [1, 98]) := by
  intro blob info
  have located : Image.locate (declaringImage [1, 98]) = .ok (some blob) := by decide +kernel
  have located' : Image.locate (declaringImage []) = .ok (some blob) := by decide +kernel
  obtain ⟨hend, hbytes⟩ := declaredBytes_declaringImage [1, 98]
  obtain ⟨hend', hbytes'⟩ := declaredBytes_declaringImage []
  have parsed : Parser.default.parse (declaredBytes (declaringImage [1, 98]) blob) 0 =
      .ok { info with
        base := 0
        issues := [⟨1, .libraries, 0xffff, .truncated "subsection content" 2 0⟩,
          ⟨2, .globalSymbols, 0xffff, .outOfBounds 60 2 60⟩] } := by
    rw [hbytes]
    decide +kernel
  obtain ⟨-, loads, -, congr⟩ := ofImage_declared .default (declaringImage [1, 98]) blob located
  exact ⟨located, (loads (by decide +kernel)).1 _ parsed,
    congr _ located' (hend'.trans hend.symm) (hbytes'.trans hbytes.symm)⟩

end Executable

end CodeView
