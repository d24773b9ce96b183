import Mathlib.Data.List.Find
import CodeView.Proofs.LineTable
import CodeView.Proofs.Relocation
import CodeView.Proofs.SourceModule.Plain
import CodeView.Record

/-!
# Decoders elsewhere

Every decoder agrees with itself under a relocation: it looks at no byte outside its window, and
it counts from the beginning of its record and from nothing else. `Decoder.read_window` says so
of a content that stands between other bytes, and of the same content alone.
-/

namespace CodeView

open Relocation

variable {m : Relocation}

/-! ## Name lists -/

theorem LibraryList.agree_readNames (names : Array String) (bound : Nat) :
    m.Agree (readNames names bound) (readNames names bound) := by
  induction bound generalizing names with
  | zero => exact Agree.pure names.toList
  | succ bound ih =>
    unfold readNames
    refine Agree.remaining.bind fun left => Agree.ite (Agree.pure _) ?_
    refine Agree.prefixedName.bind fun name => Agree.ite (Agree.pure _) ?_
    exact ih (names.push name)

theorem LibraryList.agree_read : m.Agree read read :=
  Agree.remaining.bind fun left => agree_readNames #[] left

namespace NameTable

/-- Both the names and their origin have moved, so the offsets stay. -/
theorem agree_readEntries {name : Read String} (hname : m.Agree name name) (origin : Nat)
    (entries : Array (UInt32 × String)) (bound : Nat) :
    m.Agree (readEntries origin name entries bound)
      (readEntries (origin + m.distance) name entries bound) := by
  induction bound generalizing entries with
  | zero => exact Agree.pure _
  | succ bound ih =>
    unfold readEntries
    refine Agree.remaining.bind fun left => Agree.ite (Agree.pure _) ?_
    refine Agree.position fun pos _ => ?_
    refine hname.bind fun text => Agree.ite (Agree.pure _) ?_
    rw [Nat.add_sub_add_right]
    exact ih (entries.push (offsetOf (pos - origin), text))

theorem agree_readFrom {name : Read String} (hname : m.Agree name name) (origin : Nat) :
    m.Agree (readFrom origin name) (readFrom (origin + m.distance) name) :=
  Agree.remaining.bind fun left => agree_readEntries hname origin #[] left

theorem agree_readSegmentNames : m.Agree readSegmentNames readSegmentNames :=
  Agree.get fun _ _ => agree_readFrom Agree.terminatedName m.start

end NameTable

theorem FileIndex.agree_read : m.Agree read read := by
  unfold read
  refine (Agree.word UInt16).bind fun modules => (Agree.word UInt16).bind fun references => ?_
  refine (Agree.words UInt16 _).bind fun starts => (Agree.words UInt16 _).bind fun counts => ?_
  refine (Agree.words UInt32 _).bind fun offsets => Agree.position fun origin _ => ?_
  exact (NameTable.agree_readFrom Agree.prefixedName origin).bind fun files => Agree.pure _

/-! ## Fixed fields -/

theorem GlobalSymbols.agree_read : m.Agree read read := by
  unfold read
  refine (Agree.word UInt16).bind fun _ => (Agree.word UInt16).bind fun _ => ?_
  refine (Agree.word UInt32).bind fun _ => (Agree.word UInt32).bind fun _ => ?_
  exact (Agree.word UInt32).bind fun _ => Agree.pure _

theorem ModuleSegment.local_stored : m.Local width stored := by
  intro pos hstart hlimit
  have hlimit : pos + 12 ≤ m.limit := hlimit
  have segment : wordAt UInt16 m.target (pos + m.distance) = wordAt UInt16 m.source pos :=
    local_wordAt pos hstart (by rw [width_uint16]; omega)
  have offset := wordAt_eq UInt32 4 hstart (by rw [width_uint32]; omega)
  have size := wordAt_eq UInt32 8 hstart (by rw [width_uint32]; omega)
  simp only [stored, segment, offset, size]

namespace ModuleInfo

/-- Each reserved field lies in the window. -/
theorem reserved_within {start count place : Nat} (hstart : m.start ≤ start)
    (hfit : start + count * ModuleSegment.width ≤ m.limit)
    (hplace : place ∈ reservedPlaces start count) : m.start ≤ place ∧ place + 2 ≤ m.limit := by
  obtain ⟨i, hi, rfl⟩ := List.mem_map.1 hplace
  have hnext : (i + 1) * ModuleSegment.width ≤ count * ModuleSegment.width :=
    Nat.mul_le_mul_right _ (List.mem_range.1 hi)
  have hwidth : ModuleSegment.width = 12 := rfl
  rw [Nat.add_one_mul, hwidth] at hnext
  rw [hwidth] at hfit ⊢
  omega

theorem reservedPlaces_add (start count distance : Nat) :
    reservedPlaces (start + distance) count =
      (reservedPlaces start count).map (· + distance) := by
  rw [reservedPlaces, reservedPlaces, List.map_map]
  congr 1
  funext i
  show start + distance + i * ModuleSegment.width + 2 =
    start + i * ModuleSegment.width + 2 + distance
  omega

/-- The search among fields of the window ends at the same field. -/
theorem firstNonzero?_map {places : List Nat}
    (h : ∀ place ∈ places, m.start ≤ place ∧ place + 2 ≤ m.limit) :
    firstNonzero? m.target (places.map (· + m.distance)) =
      (firstNonzero? m.source places).map (· + m.distance) := by
  rw [firstNonzero?, firstNonzero?, List.find?_map]
  congr 1
  apply List.find?_congr
  intro place hplace
  obtain ⟨hstart, hlimit⟩ := h place hplace
  have hfield : wordAt UInt16 m.target (place + m.distance) = wordAt UInt16 m.source place :=
    local_wordAt place hstart hlimit
  rw [Function.comp_apply, hfield]

theorem agree_read : m.Agree read read := by
  unfold read
  refine (Agree.word UInt16).bind fun overlay => (Agree.word UInt16).bind fun libraryIndex => ?_
  refine (Agree.word UInt16).bind fun count => (Agree.word UInt16).bind fun style => ?_
  -- sixteen bits of count keep the total far below the largest position
  have hcount : count.toNat * ModuleSegment.width ≤ Cursor.maxPosition := by
    have := count.toNat_lt
    show count.toNat * 12 ≤ 18446744073709551615
    omega
  refine Agree.ensure_position hcount fun start hstart hfit => Agree.get fun _ _ => ?_
  have within (place : Nat) (hplace : place ∈ reservedPlaces start count.toNat) :=
    reserved_within hstart.start hfit hplace
  have hfirst : firstNonzero? m.target (reservedPlaces (start + m.distance) count.toNat) =
      (firstNonzero? m.source (reservedPlaces start count.toNat)).map (· + m.distance) := by
    rw [reservedPlaces_add, firstNonzero?_map within]
  simp only [here, there, hfirst]
  cases hfound : firstNonzero? m.source (reservedPlaces start count.toNat) with
  | none =>
    refine (Agree.table ModuleSegment.local_stored _).bind fun segments => ?_
    exact Agree.prefixedName.bind fun name => Agree.pure _
  | some place =>
    obtain ⟨hfrom, hto⟩ := within place (List.mem_of_find?_eq_some hfound)
    have hfield : wordAt UInt16 m.target (place + m.distance) = wordAt UInt16 m.source place :=
      local_wordAt place hfrom hto
    show m.Agree
      (Read.seek (place + 2) >>= fun _ =>
        throw (.badPadding place (wordAt UInt16 m.source place)))
      (Read.seek (place + m.distance + 2) >>= fun _ =>
        throw (.badPadding (place + m.distance) (wordAt UInt16 m.target (place + m.distance))))
    rw [hfield, Nat.add_right_comm]
    exact (Agree.seek _).bind fun _ => Agree.throw (.badPadding place _)

end ModuleInfo

/-! ## Source modules -/

namespace SourceModule

theorem local_rangeAt : m.Local 8 rangeAt := by
  intro pos hstart hlimit
  have first : wordAt UInt32 m.target (pos + m.distance) = wordAt UInt32 m.source pos :=
    local_wordAt pos hstart (by rw [width_uint32]; omega)
  have last := wordAt_eq UInt32 4 hstart (by rw [width_uint32]; omega)
  simp only [rangeAt, first, last]

theorem agree_readTable {base : Nat} (hbase : m.Within base) (offset : UInt32)
    (range : UInt32 × UInt32) :
    m.Agree (readTable base offset range) (readTable (base + m.distance) offset range) := by
  unfold readTable
  refine (Agree.seekFrom hbase offset).bind fun _ => (Agree.word UInt16).bind fun segment => ?_
  refine (Agree.word UInt16).bind fun pairs => (Agree.ensure _ 6).bind fun _ => ?_
  refine (Agree.words UInt32 _).bind fun offsets => (Agree.words UInt16 _).bind fun lines => ?_
  exact Agree.check fun e h => LineTable.shift_of_ofParts h m.distance

theorem agree_readFile {base : Nat} (hbase : m.Within base) (offset : UInt32) :
    m.Agree (readFile base offset) (readFile (base + m.distance) offset) := by
  unfold readFile
  refine (Agree.seekFrom hbase offset).bind fun _ => (Agree.word UInt16).bind fun count => ?_
  refine Agree.position fun padPosition _ => (Agree.word UInt16).bind fun pad => ?_
  -- what would follow the report is the same as what follows a zero field
  refine Agree.ite ((Agree.throw (.badPadding padPosition pad)).bind fun _ => ?_) ?_
  all_goals
    refine (Agree.words UInt32 _).bind fun offsets => ?_
    refine (Agree.table local_rangeAt _).bind fun ranges => Agree.prefixedName.bind fun name => ?_
    refine (Agree.mapM ?_).bind fun tables => Agree.pure _
    intro ⟨offset, range⟩
    exact agree_readTable hbase offset range

theorem agree_read : m.Agree read read := by
  rw [read_eq_readPlain]
  unfold readPlain
  refine Agree.position fun base hbase => ?_
  refine (Agree.word UInt16).bind fun fileCount => (Agree.word UInt16).bind fun extentCount => ?_
  refine (Agree.words UInt32 _).bind fun fileOffsets => ?_
  refine (Agree.table local_rangeAt _).bind fun ranges => ?_
  refine (Agree.words UInt16 _).bind fun segments => ?_
  exact (Agree.mapM fun offset => agree_readFile hbase offset).bind fun files => Agree.pure _

end SourceModule

/-! ## All decoders -/

namespace Decoder

/-- What a decoder makes of a window is decided by the bytes in it. -/
theorem agree_read (decoder : Decoder) : m.Agree decoder.read decoder.read := by
  cases decoder with
  | moduleInfo => exact ModuleInfo.agree_read.bind fun info => Agree.pure _
  | sourceModule => exact SourceModule.agree_read.bind fun module => Agree.pure _
  | libraries => exact LibraryList.agree_read.bind fun names => Agree.pure _
  | globalSymbols => exact GlobalSymbols.agree_read.bind fun header => Agree.pure _
  | segmentNames => exact NameTable.agree_readSegmentNames.bind fun names => Agree.pure _
  | fileIndex => exact FileIndex.agree_read.bind fun index => Agree.pure _

/-- **A decoder sees its own window and no more.** On a content between other bytes it does what it
does on the content alone: the record is the same, and the last position and every position in an
error are as much larger as there are bytes before. -/
theorem read_window (decoder : Decoder) (before content after : ByteArray) (what : String)
    (hsize : (before ++ content ++ after).size < 0x8000000000000000) :
    ∃ w, (Cursor.ofBytes (before ++ content ++ after)).window before.size content.size what =
        .ok w ∧
      match decoder.read (Cursor.ofBytes content) with
      | .ok record c' => decoder.read w = .ok record (w.moveTo (c'.pos + before.size))
      | .error e c' =>
        decoder.read w = .error (e.shift before.size) (w.moveTo (c'.pos + before.size)) := by
  refine ⟨_, window_between hsize, ?_⟩
  have agree : (between before content after hsize).Matches (decoder.read (Cursor.ofBytes content))
      (decoder.read ((between before content after hsize).there 0)) :=
    decoder.agree_read 0 ⟨Nat.le_refl 0, Nat.zero_le _⟩
  cases hread : decoder.read (Cursor.ofBytes content) with
  | ok record c' =>
    obtain ⟨pos, rfl, hthere⟩ := (hread ▸ agree).of_ok
    exact hthere
  | error e c' =>
    obtain ⟨pos, rfl, hthere⟩ := (hread ▸ agree).of_error
    exact hthere

/-- A name whose last bytes lie behind the window. -/
theorem read_window_cutName :
    let before : ByteArray := ⟨#[9]⟩
    let content : ByteArray := ⟨#[0, 5, 97]⟩
    let after : ByteArray := ⟨#[98, 98, 98, 98]⟩
    (before ++ content ++ after).size < 0x8000000000000000 ∧
      ∃ w, (Cursor.ofBytes (before ++ content ++ after)).window 1 3 "subsection content" = .ok w ∧
        Decoder.libraries.read (Cursor.ofBytes content) =
          .error (.outOfBounds 2 5 3) ⟨content, 0, 3, 2⟩ ∧
        Decoder.libraries.read w = .error (.outOfBounds 3 5 4) (w.moveTo 3) := by
  intro before content after
  have hsize : (before ++ content ++ after).size < 0x8000000000000000 := by decide
  have alone : Decoder.libraries.read (Cursor.ofBytes content) =
      .error (.outOfBounds 2 5 3) ⟨content, 0, 3, 2⟩ := rfl
  obtain ⟨w, hw, hread⟩ :=
    read_window .libraries before content after "subsection content" hsize
  rw [alone] at hread
  exact ⟨hsize, w, hw, alone, hread⟩

end Decoder

end CodeView
