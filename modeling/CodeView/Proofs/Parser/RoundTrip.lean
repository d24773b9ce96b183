import CodeView.Blob
import CodeView.Proofs.Parser.Shortage
import CodeView.Proofs.SourceModule.RoundTrip

/-!
# Blobs read back

`Parser.parse_fileBytes` says that a blob that was written for a list of subsections is parsed to
these subsections. The offsets in it count from the base, and the contents and the directory lie at
multiples of four in the file, so the argument goes by places in the file: where each part was
written (`Blob.Written`), what the parser reads there, and that a decoder makes of a content what it
makes of the same bytes alone.
-/

namespace CodeView

variable {source : ByteArray} {position : Nat}

/-! ## Headers and entries -/

theorem DirectoryHeader.length_bytes (h : DirectoryHeader) : h.bytes.length = width := by
  simp [bytes, width]

theorem DirectoryHeader.stored_of_holds {h : DirectoryHeader}
    (holds : Holds source position h.bytes) : stored source position = h := by
  have flags := holds.right
  have nextDirectory := holds.left.right
  have entryCount := holds.left.left.right
  have entrySize := holds.left.left.left.right
  simp only [List.length_append, length_wordBytes, width_uint16, width_uint32, Nat.reduceAdd]
    at flags nextDirectory entryCount entrySize
  calc stored source position
    _ = ⟨h.headerSize, h.entrySize, h.entryCount, h.nextDirectory, h.flags⟩ := by
      rw [stored, holds.left.left.left.left.wordAt_eq, entrySize.wordAt_eq, entryCount.wordAt_eq,
        nextDirectory.wordAt_eq, flags.wordAt_eq]
    _ = h := rfl

theorem DirectoryEntry.length_bytes (e : DirectoryEntry) : e.bytes.length = width := by
  simp [bytes, width]

/-- An entry is read back if its kind is the one that its tag stands for. -/
theorem DirectoryEntry.stored_of_holds {e : DirectoryEntry} (hkind : Kind.ofTag e.kind.tag = e.kind)
    (holds : Holds source position e.bytes) : stored source position = e := by
  have size := holds.right
  have offset := holds.left.right
  have moduleIndex := holds.left.left.right
  simp only [List.length_append, length_wordBytes, width_uint16, width_uint32, Nat.reduceAdd]
    at size offset moduleIndex
  calc stored source position
    _ = ⟨Kind.ofTag e.kind.tag, e.moduleIndex, e.offset, e.size⟩ := by
      rw [stored, holds.left.left.left.wordAt_eq, moduleIndex.wordAt_eq, offset.wordAt_eq,
        size.wordAt_eq]
    _ = e := by rw [hkind]

namespace Blob

/-! ## Contents -/

@[simp] theorem length_places (position : Nat) (contents : List Content) :
    (places position contents).length = contents.length := by
  induction contents generalizing position with
  | nil => rfl
  | cons content rest ih => simp [places, ih]

/-- A content lies at a place between two positions. -/
structure Lies (source : ByteArray) (start stop : Nat) (content : Content) (place : Nat) :
    Prop where
  start : start ≤ place
  stop : place + content.bytes.length ≤ stop
  holds : Holds source place content.bytes

theorem add_length_padding (position : Nat) :
    position + (padding position).length = alignUp position := by
  rw [padding, List.length_replicate]
  have := le_alignUp position
  omega

theorem length_contentBytes_cons (content : Content) (rest : List Content) :
    position + (contentBytes position (content :: rest)).length =
      alignUp position + content.bytes.length +
        (contentBytes (alignUp position + content.bytes.length) rest).length := by
  rw [contentBytes, List.length_append, List.length_append, ← Nat.add_assoc, ← Nat.add_assoc,
    add_length_padding]

/-- Each content lies where it was placed. -/
theorem lies_of_holds {contents : List Content}
    (h : Holds source position (contentBytes position contents)) :
    ∀ item ∈ contents.zip (places position contents),
      Lies source position (position + (contentBytes position contents).length) item.1 item.2 := by
  induction contents generalizing position with
  | nil => simp [places]
  | cons content rest ih =>
    -- the first content lies behind the filling, and the others behind both
    have hcontent := h.left.right
    have hrest := h.right
    rw [List.length_append, ← Nat.add_assoc] at hrest
    rw [add_length_padding] at hcontent hrest
    have hstart := le_alignUp position
    rw [length_contentBytes_cons, places, List.zip_cons_cons, List.forall_mem_cons]
    constructor
    · exact ⟨hstart, Nat.le_add_right _ _, hcontent⟩
    · intro item hitem
      have hlies := ih hrest item hitem
      have hfrom := hlies.start
      exact ⟨by omega, hlies.stop, hlies.holds⟩

/-! ## The parts of a blob -/

/-- Where the directory of a blob begins that stands at `base`. -/
def directoryStart (base : Nat) (contents : List Content) : Nat :=
  base + headerWidth + (contentBytes (base + headerWidth) contents).length

theorem le_directoryStart (base : Nat) (contents : List Content) :
    base + headerWidth ≤ directoryStart base contents :=
  Nat.le_add_right _ _

/-- The entry of a content that is stored at a place. -/
def placedEntry (base : Nat) (item : Content × Nat) : DirectoryEntry :=
  item.1.entry (item.2 - base)

theorem entryBytes_eq (base : Nat) (contents : List Content) (places : List Nat) :
    (contents.zipWith (fun content place => (content.entry (place - base)).bytes) places).flatten =
      (contents.zip places).flatMap fun item => (placedEntry base item).bytes := by
  rw [List.flatMap_def, List.map_zip_eq_zipWith]
  rfl

/-- The header of the directory of a list of contents. -/
def header (contents : List Content) : DirectoryHeader :=
  ⟨.ofNat DirectoryHeader.width, .ofNat DirectoryEntry.width, .ofNat contents.length, 0, 0⟩

theorem directoryBytes_eq (base : Nat) (contents : List Content) (places : List Nat) :
    directoryBytes base contents places = (header contents).bytes ++
      (contents.zip places).flatMap fun item => (placedEntry base item).bytes := by
  rw [directoryBytes, entryBytes_eq]
  rfl

theorem length_directoryBytes (base position : Nat) (contents : List Content) :
    (directoryBytes base contents (places position contents)).length =
      DirectoryHeader.width + contents.length * DirectoryEntry.width := by
  have hentries := length_flatMap_of_size (fun item => (placedEntry base item).length_bytes)
    (contents.zip (places position contents))
  rw [List.length_zip, length_places, Nat.min_self] at hentries
  rw [directoryBytes_eq, List.length_append, DirectoryHeader.length_bytes, hentries]

/-- A blob of the given subsections stands at `base`, and 32 bits can count its bytes. -/
structure Written (source : ByteArray) (base : Nat) (signature : Signature)
    (contents : List Content) : Prop where
  signature : Holds source base signature.bytes.toList
  offset : Holds source (base + 4)
    (wordBytes (UInt32.ofNat (directoryStart base contents - base)))
  stored : Holds source (base + headerWidth) (contentBytes (base + headerWidth) contents)
  directory : Holds source (directoryStart base contents)
    (directoryBytes base contents (places (base + headerWidth) contents))
  small : directoryStart base contents + DirectoryHeader.width +
    contents.length * DirectoryEntry.width < base + UInt32.size

theorem length_fileBytes (before : List UInt8) (signature : Signature) (contents : List Content) :
    (fileBytes before signature contents).length =
      directoryStart before.length contents + DirectoryHeader.width +
        contents.length * DirectoryEntry.width := by
  simp only [fileBytes, List.length_append, length_wordBytes, width_uint32, Vector.length_toList,
    length_directoryBytes]
  unfold directoryStart headerWidth
  omega

theorem written_fileBytes {before : List UInt8} {signature : Signature} {contents : List Content}
    (hblob : (fileBytes before signature contents).length < before.length + UInt32.size) :
    Written (fileBytes before signature contents).toByteArray before.length signature contents := by
  have h := Holds.toByteArray (fileBytes before signature contents)
  have signature := h.left.left.left.right
  have offset := h.left.left.right
  have stored := h.left.right
  have directory := h.right
  simp only [List.length_append, length_wordBytes, width_uint32, Vector.length_toList,
    Nat.zero_add] at signature offset stored directory
  have hstart : directoryStart before.length contents - before.length = headerWidth +
      (contentBytes (before.length + headerWidth) contents).length := by
    unfold directoryStart
    omega
  rw [length_fileBytes] at hblob
  rw [← hstart] at offset
  exact ⟨signature, offset, stored, directory, hblob⟩

/-! ## What the parser reads of it -/

namespace Written

variable {base : Nat} {signature : Signature} {contents : List Content}

theorem signatureAt_eq (h : Written source base signature contents) :
    Parser.signatureAt source base = signature.bytes := by
  refine Vector.ext fun i hi => ?_
  have hbyte := h.signature.byteAt_eq i (by rwa [Vector.length_toList])
  rw [Vector.getElem_toList] at hbyte
  rw [Parser.signatureAt, Vector.getElem_ofFn, hbyte]

theorem signatureOf_eq (h : Written source base signature contents) :
    Parser.signatureOf source base = signature := by
  rw [Parser.signatureOf, Signature.ofBytes?_eq_some_iff.2 h.signatureAt_eq]
  rfl

theorem directoryPlace_eq (h : Written source base signature contents) :
    Parser.directoryPlace source base = directoryStart base contents := by
  have hsmall := h.small
  have hstart := le_directoryStart base contents
  rw [Parser.directoryPlace, h.offset.wordAt_eq, UInt32.toNat_ofNat_of_lt' (by omega)]
  omega

theorem header_eq (h : Written source base signature contents) :
    DirectoryHeader.stored source (Parser.directoryPlace source base) = header contents := by
  have hdirectory := h.directory
  rw [directoryBytes_eq] at hdirectory
  rw [h.directoryPlace_eq]
  exact DirectoryHeader.stored_of_holds hdirectory.left

theorem countAt_eq (h : Written source base signature contents) :
    Directory.countAt source (Parser.directoryPlace source base) = contents.length := by
  have hsmall := h.small
  have hstart := le_directoryStart base contents
  rw [show DirectoryEntry.width = 12 from rfl] at hsmall
  rw [Directory.countAt, h.header_eq]
  exact UInt32.toNat_ofNat_of_lt' (by omega)

theorem entryAt_eq (h : Written source base signature contents) {i : Nat}
    (hi : i < (contents.zip (places (base + headerWidth) contents)).length) :
    Parser.entryAt source base i =
      placedEntry base (contents.zip (places (base + headerWidth) contents))[i] := by
  have hdirectory := h.directory
  rw [directoryBytes_eq] at hdirectory
  have hentry := hdirectory.right.item (fun item => (placedEntry base item).length_bytes) i hi
  rw [DirectoryHeader.length_bytes] at hentry
  rw [Parser.entryAt, Directory.entryPlace, h.directoryPlace_eq]
  refine DirectoryEntry.stored_of_holds ?_ hentry
  simp [placedEntry, Content.entry]

theorem sound (h : Written source base signature contents) : Parser.Sound source base := by
  have hdirectory := h.directory.within
  rw [length_directoryBytes] at hdirectory
  have hstart : base + 8 ≤ directoryStart base contents := le_directoryStart base contents
  have hplace := h.directoryPlace_eq
  constructor
  case head => omega
  case signature =>
    rw [h.signatureAt_eq]
    cases signature with
    | nb09 => exact .inl rfl
    | nb11 => exact .inr rfl
  case directory =>
    constructor
    case head => omega
    case headerSize =>
      rw [h.header_eq]
      rfl
    case entrySize =>
      rw [h.header_eq]
      rfl
    case entries =>
      rw [Directory.entryPlace, h.countAt_eq]
      omega

end Written

end Blob

/-! ## What becomes of the contents -/

theorem Holds.sameBytes {bytes : List UInt8} (h : Holds source position bytes) :
    SameBytes bytes.toByteArray source 0 position bytes.length := by
  intro i hi
  rw [h.byteAt_eq i hi, (Holds.toByteArray bytes).byteAt_eq i hi]

/-- A decoder makes of a stored content what it makes of the content alone. -/
theorem Decoder.result_of_holds (decoder : Decoder) {bytes : List UInt8}
    (h : Holds source position bytes) (hsize : source.size < 0x8000000000000000) :
    decoder.read.result ⟨source, position, position + bytes.length, position⟩ =
      (decoder.read.result (Cursor.ofBytes bytes.toByteArray)).mapError (·.shift position) := by
  have hwithin := h.within
  have same : SameBytes bytes.toByteArray source 0 (0 + position) bytes.length := by
    rw [Nat.zero_add]
    exact h.sameBytes
  -- the content alone begins at zero, so it has moved by its whole position
  let m := Relocation.ofSameBytes same (.inr (by omega))
  have hthere : m.there 0 = ⟨source, position, position + bytes.length, position⟩ := by
    show (⟨source, 0 + position, 0 + bytes.length + position, 0 + position⟩ : Cursor) = _
    rw [Nat.zero_add, Nat.zero_add, Nat.add_comm bytes.length]
  have hhere : m.here 0 = Cursor.ofBytes bytes.toByteArray := by
    show (⟨bytes.toByteArray, 0, 0 + bytes.length, 0⟩ : Cursor) = _
    rw [Cursor.ofBytes, List.size_toByteArray, Nat.zero_add]
  have hresult := (decoder.agree_read (m := m)).result_eq ⟨Nat.le_refl 0, Nat.zero_le _⟩
  rwa [hthere, hhere] at hresult

theorem FormatError.isTruncated_shift (e : FormatError) (distance : Nat) :
    (e.shift distance).isTruncated = e.isTruncated := by
  cases e <;> rfl

namespace Blob

/-- What a parser makes of a content that is stored at a place: no content where no decoder is in
charge, and otherwise what the decoder makes of the content alone. The positions in an error are
those of the place. -/
def Content.outcome (p : Parser) (content : Content) (place : Nat) : Except FormatError Record :=
  match p.registry.find? (Kind.ofTag content.tag) with
  | none => .ok (.unsupported (Kind.ofTag content.tag))
  | some decoder =>
    (decoder.read.result (Cursor.ofBytes content.bytes.toByteArray)).mapError (·.shift place)

/-- The entry of a stored content says where it is and what it holds. -/
structure Tells (source : ByteArray) (base : Nat) (entry : DirectoryEntry) (content : Content)
    (place : Nat) : Prop where
  tag : entry.kind.tag = content.tag
  moduleIndex : entry.moduleIndex = content.moduleIndex
  offset : base + entry.offset.toNat = place
  size : entry.size.toNat = content.bytes.length
  holds : Holds source place content.bytes

variable {base : Nat} {signature : Signature} {contents : List Content} {item : Content × Nat}

theorem Written.tells (h : Written source base signature contents)
    (hitem : item ∈ contents.zip (places (base + headerWidth) contents)) :
    Tells source base (placedEntry base item) item.1 item.2 := by
  obtain ⟨hstart, hstop, holds⟩ := lies_of_holds h.stored item hitem
  have hstop : item.2 + item.1.bytes.length ≤ directoryStart base contents := hstop
  have hsmall := h.small
  constructor
  case tag => exact Kind.tag_ofTag item.1.tag
  case moduleIndex => rfl
  case offset =>
    show base + (UInt32.ofNat (item.2 - base)).toNat = item.2
    rw [UInt32.toNat_ofNat_of_lt' (by omega)]
    omega
  case size => exact UInt32.toNat_ofNat_of_lt' (by omega)
  case holds => exact holds

theorem Tells.outcome_eq {p : Parser} {content : Content} {place : Nat}
    (h : Tells source base (content.entry (place - base)) content place)
    (hsize : source.size < 0x8000000000000000) :
    p.outcome source base (content.entry (place - base)) = content.outcome p place := by
  have hwithin := h.holds.within
  have hlimit : (content.entry (place - base)).limit base = place + content.bytes.length := by
    rw [DirectoryEntry.limit, h.offset, h.size]
  have hkind : (content.entry (place - base)).kind = Kind.ofTag content.tag := rfl
  rw [Parser.outcome_eq, Content.outcome, hkind]
  cases p.registry.find? (Kind.ofTag content.tag) with
  | none => rfl
  | some decoder =>
    rw [Parser.content_of_fits (by omega), hlimit, h.offset]
    exact decoder.result_of_holds h.holds hsize

/-- No content is reported missing. -/
theorem Content.isTruncated_of_outcome {p : Parser} {content : Content} {place : Nat}
    {e : FormatError} (h : content.outcome p place = .error e) : e.isTruncated = false := by
  unfold Content.outcome at h
  cases hfind : p.registry.find? (Kind.ofTag content.tag) with
  | none =>
    rw [hfind] at h
    cases h
  | some decoder =>
    simp only [hfind] at h
    cases hresult : decoder.read.result (Cursor.ofBytes content.bytes.toByteArray) with
    | ok record =>
      rw [hresult] at h
      cases h
    | error e' =>
      rw [hresult] at h
      cases h
      obtain ⟨c', hread⟩ := Read.result_eq_error.1 hresult
      rw [FormatError.isTruncated_shift]
      exact Decoder.isTruncated_of_read ⟨Nat.le_refl 0, Nat.zero_le _⟩ rfl hread

/-! ## The whole blob -/

/-- What becomes of each content of a blob that stands at `base`, with the entry that says where the
content is. -/
def outcomes (p : Parser) (base : Nat) (contents : List Content) :
    List (DirectoryEntry × Except FormatError Record) :=
  (contents.zip (places (base + headerWidth) contents)).map fun (content, place) =>
    (content.entry (place - base), content.outcome p place)

theorem Written.storedOutcomes_eq (h : Written source base signature contents) (p : Parser)
    (hsize : source.size < 0x8000000000000000) :
    p.storedOutcomes source base = outcomes p base contents := by
  rw [Parser.storedOutcomes, h.countAt_eq, outcomes]
  apply List.ext_getElem
  · simp
  · intro i hi hi'
    rw [List.length_map] at hi'
    have hitem := h.tells (List.getElem_mem hi')
    rw [List.getElem_map, List.getElem_map, List.getElem_range, h.entryAt_eq hi']
    exact Prod.ext rfl (hitem.outcome_eq hsize)

theorem Written.parse_eq (h : Written source base signature contents) {p : Parser}
    (hp : p.strict = false) (hsize : source.size < 0x8000000000000000) :
    p.parse source base =
      .ok (DebugInfo.ofOutcomes signature base (header contents) (outcomes p base contents)) := by
  rw [Parser.parse_of_lenient_eq_run hp, h.signatureOf_eq, h.header_eq, h.storedOutcomes_eq p hsize]
  exact Check.run_eq_ok.2 ⟨Parser.holds_checks_iff.2 h.sound, rfl⟩

/-- Outcome `i` is that of content `i`. -/
theorem getElem?_outcomes (p : Parser) (base : Nat) {contents : List Content} {i : Nat}
    {content : Content} (h : contents[i]? = some content) :
    ∃ place, (content, place) ∈ contents.zip (places (base + headerWidth) contents) ∧
      (outcomes p base contents)[i]? =
        some (content.entry (place - base), content.outcome p place) := by
  obtain ⟨hi, rfl⟩ := List.getElem?_eq_some_iff.1 h
  have hplace : i < (places (base + headerWidth) contents).length := by rwa [length_places]
  have hzip : (contents.zip (places (base + headerWidth) contents))[i]? =
      some (contents[i], (places (base + headerWidth) contents)[i]) := by
    rw [List.getElem?_zip_eq_some]
    exact ⟨List.getElem?_eq_getElem hi, List.getElem?_eq_getElem hplace⟩
  refine ⟨(places (base + headerWidth) contents)[i], List.mem_of_getElem? hzip, ?_⟩
  rw [outcomes, List.getElem?_map, hzip]
  rfl

/-! ## Source modules -/

/-- A subsection with the source module of a list of files. -/
def Content.ofFiles (moduleIndex : UInt16) (files : List SourceFile) : Content :=
  ⟨Kind.sourceModule.tag, moduleIndex, SourceModule.bytesOfFiles files⟩

theorem Content.outcome_ofFiles {p : Parser}
    (hdecoder : p.registry.find? .sourceModule = some .sourceModule) {files : List SourceFile}
    (hfiles : SourceModule.Storable files) (moduleIndex : UInt16) (place : Nat) :
    (Content.ofFiles moduleIndex files).outcome p place =
      .ok (.sourceModule (SourceModule.ofFiles files)) := by
  have hkind : Kind.ofTag (Content.ofFiles moduleIndex files).tag = .sourceModule := rfl
  have addressable :
      (Cursor.ofBytes (SourceModule.bytesOfFiles files).toByteArray).Addressable := by
    refine ⟨Cursor.inside_ofBytes _, ?_⟩
    have hlength := hfiles.length
    have hmax : UInt32.size ≤ Cursor.maxPosition := by decide
    show (SourceModule.bytesOfFiles files).toByteArray.size ≤ Cursor.maxPosition
    rw [List.size_toByteArray]
    omega
  obtain ⟨c', hread⟩ := SourceModule.read_of_holds addressable hfiles (Holds.toByteArray _)
    (by simp [Cursor.ofBytes])
  have hrecord : Decoder.sourceModule.read
      (Cursor.ofBytes (SourceModule.bytesOfFiles files).toByteArray) =
        .ok (.sourceModule (SourceModule.ofFiles files)) c' :=
    Read.bind_eq_ok.2 ⟨_, c', hread, rfl⟩
  rw [Content.outcome, hkind, hdecoder]
  exact congrArg (Except.mapError _) (Read.result_of_ok hrecord)

theorem sourceModules_outcomes {p : Parser}
    (hdecoder : p.registry.find? .sourceModule = some .sourceModule)
    (modules : List (UInt16 × List SourceFile))
    (hmodules : ∀ m ∈ modules, SourceModule.Storable m.2) (signature : Signature) (base : Nat)
    (header : DirectoryHeader) :
    (DebugInfo.ofOutcomes signature base header
      (outcomes p base (modules.map fun m => .ofFiles m.1 m.2))).sourceModules =
        modules.map fun m => SourceModule.ofFiles m.2 := by
  rw [DebugInfo.sourceModules, DebugInfo.records_ofOutcomes, outcomes, List.zip_map_left,
    List.map_map, List.filterMap_map, List.filterMap_filterMap]
  generalize hplaces : places _ _ = positions
  have hlength : modules.length ≤ positions.length := by
    rw [← hplaces, length_places, List.length_map]
  -- every place leads to the module that was written there
  calc (modules.zip positions).filterMap _
    _ = (modules.zip positions).filterMap fun item => some (SourceModule.ofFiles item.1.2) := by
      refine List.filterMap_congr fun item hitem => ?_
      have hmodule := hmodules item.1 (List.of_mem_zip hitem).1
      have houtcome := Content.outcome_ofFiles hdecoder hmodule item.1.1 item.2
      show ((Content.ofFiles item.1.1 item.1.2).outcome p item.2).toOption.bind
        Record.sourceModule? = _
      rw [houtcome]
      rfl
    _ = ((modules.zip positions).map Prod.fst).map fun m => SourceModule.ofFiles m.2 := by
      rw [List.filterMap_eq_map', List.map_map]
      rfl
    _ = modules.map fun m => SourceModule.ofFiles m.2 := by
      rw [List.map_fst_zip hlength]

end Blob

/-- **A blob that was written is parsed to what was written.** Whatever stands before the blob and
whichever decoders are in charge, a lenient parse comes to one outcome for each subsection, in
order. The entry tells the tag, the module, the length and the place of the content, no content is
reported missing, and the outcome is what the decoder makes of the content alone. Where all contents
are source modules, questions are answered as by the modules that were written. -/
theorem Parser.parse_fileBytes (p : Parser) (before : List UInt8) (signature : Signature)
    (contents : List Blob.Content) (hp : p.strict = false)
    (hblob : (Blob.fileBytes before signature contents).length < before.length + UInt32.size)
    (hsize : (Blob.fileBytes before signature contents).length < 0x8000000000000000) :
    let base := before.length
    let source := (Blob.fileBytes before signature contents).toByteArray
    let outcomes := Blob.outcomes p base contents
    p.parse source base = .ok (.ofOutcomes signature base (Blob.header contents) outcomes) ∧
      outcomes.length = contents.length ∧
      (Blob.header contents).entryCount.toNat = contents.length ∧
      (∀ (i : Nat) content, contents[i]? = some content → ∃ entry place,
        outcomes[i]? = some (entry, content.outcome p place) ∧
          Blob.Tells source base entry content place ∧
          ∀ e, content.outcome p place = .error e → e.isTruncated = false) ∧
      ∀ modules : List (UInt16 × List SourceFile), (∀ m ∈ modules, SourceModule.Storable m.2) →
        contents = (modules.map fun m => .ofFiles m.1 m.2) →
        p.registry.find? .sourceModule = some .sourceModule →
        ∀ info, p.parse source base = .ok info →
          info.sourceModules = (modules.map fun m => .ofFiles m.2) ∧
          ∀ queries, (info.resolver.askAll queries).1 =
            ((Resolver.ofModules (modules.map fun m => .ofFiles m.2)).askAll queries).1 := by
  intro base source outcomes
  have hwritten : Blob.Written source base signature contents := Blob.written_fileBytes hblob
  have hsource : source.size < 0x8000000000000000 := by simpa [source] using hsize
  have run : p.parse source base =
      .ok (.ofOutcomes signature base (Blob.header contents) outcomes) :=
    hwritten.parse_eq hp hsource
  have hcount := hwritten.countAt_eq
  rw [Directory.countAt, hwritten.header_eq] at hcount
  refine ⟨run, by simp [outcomes, Blob.outcomes], hcount, ?_, ?_⟩
  · intro i content hi
    obtain ⟨place, hitem, houtcome⟩ := Blob.getElem?_outcomes p base hi
    exact ⟨_, place, houtcome, hwritten.tells hitem,
      fun e he => Blob.Content.isTruncated_of_outcome he⟩
  · intro modules hmodules hcontents hdecoder info hinfo
    rw [run] at hinfo
    cases hinfo
    have hsourceModules : (DebugInfo.ofOutcomes signature base (Blob.header contents)
        outcomes).sourceModules = modules.map fun m => SourceModule.ofFiles m.2 := by
      subst hcontents
      exact Blob.sourceModules_outcomes hdecoder modules hmodules signature base _
    refine ⟨hsourceModules, fun queries => ?_⟩
    rw [DebugInfo.resolver, hsourceModules]

/-- Two source modules behind three other bytes. -/
theorem Parser.parse_fileBytes_mixedFiles :
    let contents : List Blob.Content := [.ofFiles 1 SourceModule.mixedFiles, .ofFiles 2 []]
    let file := Blob.fileBytes [0xcc, 0xcc, 0xcc] .nb11 contents
    default.strict = false ∧ file.length < 3 + UInt32.size ∧ file.length < 0x8000000000000000 ∧
      (∀ files ∈ [SourceModule.mixedFiles, []], SourceModule.Storable files) ∧
      default.registry.find? .sourceModule = some .sourceModule ∧
      ∃ info, default.parse file.toByteArray 3 = .ok info ∧ info.signature = .nb11 ∧
        info.header.entryCount = 2 ∧
        info.sourceModules = [.ofFiles SourceModule.mixedFiles, .ofFiles []] := by
  intro contents file
  have hp : default.strict = false := rfl
  have hlength : file.length = 216 := by decide +kernel
  have hblob : file.length < 3 + UInt32.size := by
    rw [hlength]
    decide
  have hsize : file.length < 0x8000000000000000 := by
    rw [hlength]
    decide
  have hstorable : ∀ files ∈ [SourceModule.mixedFiles, []], SourceModule.Storable files := by
    decide +kernel
  have hdecoder : default.registry.find? .sourceModule = some .sourceModule := by decide
  obtain ⟨run, -, -, -, hmodules⟩ :=
    parse_fileBytes default [0xcc, 0xcc, 0xcc] .nb11 contents hp hblob hsize
  have hback := hmodules [(1, SourceModule.mixedFiles), (2, [])] (by simpa using hstorable) rfl
    hdecoder _ run
  exact ⟨hp, hblob, hsize, hstorable, hdecoder, _, run, rfl, rfl, hback.1⟩

end CodeView
