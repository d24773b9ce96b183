import CodeView.Proofs.Defect
import CodeView.Proofs.NameTable.Row
import Mathlib.Data.List.Flatten

/-!
# Tables of segment names

A table of segment names is a row of names that end with zero bytes. `readSegmentNames_ok_iff_row`
says that these contents are read and no others, which names are then found at which offsets, and
how a content fails that is no row.
-/

namespace CodeView.NameTable

open NameFormat (terminated)

variable {c c' : Cursor} {t : NameTable}

/-- The names of the row are read, with the offsets at which they begin. -/
theorem readSegmentNames_eq_ok (hc : c.Inside) (hstart : c.pos = c.start) :
    readSegmentNames c = .ok t c' ↔
      ∃ names tail, terminated.Row c.rest names tail ∧ t.entries = terminated.entriesFrom 0 names ∧
        c' = c.moveTo (c.pos + (names.flatMap terminatedBytes).length + min 1 tail.length) := by
  have hread : readSegmentNames c = readFrom c.pos Read.terminatedName c := by
    rw [hstart]
    rfl
  rw [hread, readFrom_eq_ok terminated.length_pos_of_stores Read.takes_terminatedName hc]
  simp only [NameFormat.lists_iff_row hc.2.2 hc.2.1 (Nat.le_refl _), Nat.sub_self]
  constructor
  · rintro ⟨_, ⟨names, tail, hrow, hentries, rfl⟩, rfl⟩
    exact ⟨names, tail, hrow, hentries, rfl⟩
  · rintro ⟨names, tail, hrow, hentries, rfl⟩
    exact ⟨_, ⟨names, tail, hrow, hentries, rfl⟩, rfl⟩

/-- A name is found at the offset at which it begins in the row, and nowhere else. -/
theorem nameAt?_of_row {names : List (List UInt8)} {tail : List UInt8} (hc : c.Inside)
    (hsize : c.rest.length < UInt32.size) (hrow : terminated.Row c.rest names tail)
    (ht : t.entries = terminated.entriesFrom 0 names) (offset : UInt32) (text : String) :
    t.nameAt? offset = some text ↔
      ∃ i name, names[i]? = some name ∧ text = Text.Lossy.decode name ∧
        offset.toNat = ((names.take i).flatMap terminatedBytes).length := by
  have haddressed : t.Addressed := by
    have hlists := NameFormat.lists_of_row hc.2.2 hc.2.1 (Nat.le_refl _) hrow
    rw [Nat.sub_self, ← ht] at hlists
    refine hlists.addressed terminated.length_pos_of_stores (Nat.le_refl _) ?_
    rw [Cursor.rest, length_bytesAt, Cursor.remaining, UInt32.size] at hsize
    omega
  have hplace (i : Nat) : offset = offsetOf (0 + ((names.take i).flatMap terminatedBytes).length) ↔
      offset.toNat = ((names.take i).flatMap terminatedBytes).length := by
    have hle : ((names.take i).flatMap terminatedBytes).length ≤ c.rest.length := by
      rw [hrow.eq, List.length_append]
      exact Nat.le_add_right_of_le ((List.take_sublist i names).flatMap terminatedBytes).length_le
    rw [Nat.zero_add, ← UInt32.toNat_inj, toNat_offsetOf (Nat.lt_of_le_of_lt hle hsize)]
  rw [haddressed.nameAt?_eq_some_iff, ht, NameFormat.mem_entriesFrom]
  simp only [← hplace]
  rfl

/-- The last name of the content has no zero byte behind it. -/
def CutOff (content : List UInt8) : Prop :=
  ∃ (names : List (List UInt8)) (last : List UInt8),
    content = names.flatMap terminatedBytes ++ last ∧
      (∀ name ∈ names, name ≠ [] ∧ 0 ∉ name) ∧ last ≠ [] ∧ 0 ∉ last

theorem row_or_cutOff (content : List UInt8) :
    (∃ names tail, terminated.Row content names tail) ∨ CutOff content := by
  induction hlength : content.length using Nat.strongRecOn generalizing content with
  | ind length ih =>
    cases content with
    | nil => exact .inl ⟨[], [], NameFormat.Row.nil_iff.2 ⟨rfl, .inl rfl⟩⟩
    | cons b more =>
      by_cases hb : b = 0
      · exact .inl ⟨[], b :: more, NameFormat.Row.nil_iff.2 ⟨rfl, .inr (congrArg some hb)⟩⟩
      by_cases hzero : 0 ∈ b :: more
      · -- the first zero byte ends a name, and what follows it is shorter
        obtain ⟨name, rest, hsplit, hname⟩ := List.eq_append_cons_of_mem hzero
        have hne : name ≠ [] := by
          rintro rfl
          exact hb (List.cons.inj hsplit).1
        have hcontent : b :: more = terminatedBytes name ++ rest := by
          rw [hsplit, terminatedBytes, List.append_assoc, List.singleton_append]
        have hshorter : rest.length < length := by
          rw [← hlength, hsplit, List.length_append, List.length_cons]
          omega
        obtain ⟨names, tail, hrow⟩ | ⟨names, last, hrest, hnames, hlast⟩ := ih _ hshorter rest rfl
        · exact .inl ⟨_, tail, NameFormat.Row.cons_iff.2 ⟨hname, hne, rest, hcontent, hrow⟩⟩
        · refine .inr ⟨name :: names, last, ?_,
            List.forall_mem_cons.2 ⟨⟨hne, hname⟩, hnames⟩, hlast⟩
          rw [hcontent, hrest, List.flatMap_cons, List.append_assoc]
      · exact .inr ⟨[], b :: more, rfl, by simp, by simp, hzero⟩

/-- **Segment names are read from rows, and from nothing else.** A content is read if it is made up
of names that are not empty, each before its zero byte, and of a tail that is empty or begins with a
zero byte. There is one way to see it so; the reading gives the names in order, each at the offset
at which it begins, and stops behind the first byte of the tail. Any other content ends in a name
without a zero byte, and the report is that it leaves the window. -/
theorem readSegmentNames_ok_iff_row (hc : c.Inside) (hstart : c.pos = c.start)
    (hsize : c.rest.length < UInt32.size) :
    ((∃ t c', readSegmentNames c = .ok t c') ↔ ∃ names tail, terminated.Row c.rest names tail) ∧
    (∀ names tail, terminated.Row c.rest names tail →
      (∀ names' tail', terminated.Row c.rest names' tail' → names' = names ∧ tail' = tail) ∧
      ∃ t, readSegmentNames c = .ok t
          (c.moveTo (c.pos + (names.flatMap terminatedBytes).length + min 1 tail.length)) ∧
        t.names = names.map Text.Lossy.decode ∧
        ∀ offset text, t.nameAt? offset = some text ↔
          ∃ i name, names[i]? = some name ∧ text = Text.Lossy.decode name ∧
            offset.toNat = ((names.take i).flatMap terminatedBytes).length) ∧
    ((¬ ∃ names tail, terminated.Row c.rest names tail) →
      CutOff c.rest ∧ ∃ position length c',
        readSegmentNames c = .error (.outOfBounds position length c.limit) c') := by
  have hok : (∃ t c', readSegmentNames c = .ok t c') ↔
      ∃ names tail, terminated.Row c.rest names tail := by
    simp only [readSegmentNames_eq_ok hc hstart]
    constructor
    · rintro ⟨_, _, names, tail, hrow, -, -⟩
      exact ⟨names, tail, hrow⟩
    · rintro ⟨names, tail, hrow⟩
      exact ⟨⟨_⟩, _, names, tail, hrow, rfl, rfl⟩
  refine ⟨hok, fun names tail hrow => ⟨fun _ _ => hrow.unique, ?_⟩, fun hnone => ⟨?_, ?_⟩⟩
  · refine ⟨⟨terminated.entriesFrom 0 names⟩,
      (readSegmentNames_eq_ok hc hstart).2 ⟨names, tail, hrow, rfl, rfl⟩, ?_,
      nameAt?_of_row hc hsize hrow rfl⟩
    exact NameFormat.map_snd_entriesFrom 0 names
  · exact (row_or_cutOff c.rest).resolve_left hnone
  · exact Read.Reports.outOfBounds reports_readSegmentNames hc (hok.not.2 hnone)

/-- A window behind two bytes, with a name that is not UTF-8, an empty name and a byte behind it. -/
def paddedNames : ByteArray :=
  ⟨#[1, 1, 95, 84, 0, 255, 0, 99, 0, 0, 65, 1]⟩

theorem readSegmentNames_ok_iff_row_paddedNames :
    let c : Cursor := ⟨paddedNames, 2, 11, 2⟩
    c.Inside ∧ c.pos = c.start ∧ c.rest.length < UInt32.size ∧
      ∃ t, readSegmentNames c = .ok t (c.moveTo 10) ∧ t.names = ["_T", "\uFFFD", "c"] ∧
        t.nameAt? 5 = some "c" := by
  intro c
  have inside : c.Inside := by decide
  have size : c.rest.length < UInt32.size := by decide
  have row : terminated.Row c.rest [[95, 84], [255], [99]] [0, 65] := by
    refine ⟨by decide, ?_, by decide, .inr rfl⟩
    show ∀ name ∈ [[95, 84], [255], [99]], (0 : UInt8) ∉ name
    decide
  obtain ⟨-, read, -⟩ := readSegmentNames_ok_iff_row inside rfl size
  obtain ⟨-, t, hread, hnames, hplaces⟩ := read _ _ row
  exact ⟨inside, rfl, size, t, hread, hnames, (hplaces 5 "c").2 ⟨2, [99], rfl, by decide, rfl⟩⟩

end CodeView.NameTable
