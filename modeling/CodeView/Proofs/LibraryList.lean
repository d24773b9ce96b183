import CodeView.Proofs.Defect
import CodeView.Proofs.NameTable.Row

/-!
# Library lists

A library list is one name, which may be empty, and a row of names behind it. `read_ok_iff_stored`
says that these contents are read and no others, and that the names of any list which can be stored
are read back in their places.
-/

namespace CodeView.LibraryList

open NameFormat (prefixed)

/-- A content that is made up of names, of which only the first may be empty, and of a tail. -/
structure Stored (content : List UInt8) (names : List (List UInt8)) (tail : List UInt8) :
    Prop where
  eq : content = names.flatMap prefixedBytes ++ tail
  short : ∀ name ∈ names, name.length ≤ 255
  nonempty : ∀ name ∈ names.tail, name ≠ []
  ends : tail = [] ∨ names ≠ [] ∧ tail.head? = some 0

namespace Stored

variable {content tail tail' name : List UInt8} {names names' : List (List UInt8)}

theorem nil_iff : Stored content [] tail ↔ content = [] ∧ tail = [] := by
  constructor
  · rintro ⟨rfl, -, -, rfl | ⟨hnone, -⟩⟩
    · exact ⟨rfl, rfl⟩
    · exact absurd rfl hnone
  · rintro ⟨rfl, rfl⟩
    exact ⟨rfl, by simp, by simp, .inl rfl⟩

theorem cons_iff :
    Stored content (name :: names) tail ↔
      name.length < 256 ∧ ∃ rest, content = prefixedBytes name ++ rest ∧
        prefixed.Row rest names tail := by
  constructor
  · rintro ⟨rfl, hshort, hnonempty, hends⟩
    rw [List.forall_mem_cons] at hshort
    refine ⟨Nat.lt_succ_of_le hshort.1, names.flatMap prefixedBytes ++ tail, ?_, rfl, ?_, hnonempty,
      hends.imp_right And.right⟩
    · rw [List.flatMap_cons, List.append_assoc]
    · exact fun name hname => Nat.lt_succ_of_le (hshort.2 name hname)
  · rintro ⟨hname, rest, rfl, ⟨rfl, hallowed, hnonempty, hends⟩⟩
    refine ⟨?_, List.forall_mem_cons.2 ⟨Nat.le_of_lt_succ hname, ?_⟩, hnonempty, ?_⟩
    · rw [List.flatMap_cons, List.append_assoc]
      rfl
    · exact fun name hname => Nat.le_of_lt_succ (hallowed name hname)
    · exact hends.imp_right fun hzero => ⟨List.cons_ne_nil _ _, hzero⟩

/-- A content is made up in one way only. -/
theorem unique (h : Stored content names tail) (h' : Stored content names' tail') :
    names' = names ∧ tail' = tail := by
  cases names with
  | nil =>
    obtain ⟨rfl, rfl⟩ := nil_iff.1 h
    cases names' with
    | nil => exact ⟨rfl, (nil_iff.1 h').2⟩
    | cons name' names' =>
      obtain ⟨-, rest, hcontent, -⟩ := cons_iff.1 h'
      cases hcontent
  | cons name names =>
    obtain ⟨hname, rest, rfl, hrow⟩ := cons_iff.1 h
    cases names' with
    | nil => cases (nil_iff.1 h').1
    | cons name' names' =>
      obtain ⟨hname', rest', heq, hrow'⟩ := cons_iff.1 h'
      obtain ⟨rfl, rfl⟩ := prefixedBytes_append_inj hname hname' heq
      obtain ⟨rfl, rfl⟩ := hrow.unique hrow'
      exact ⟨rfl, rfl⟩

end Stored

variable {c c' : Cursor} {found : List String}

/-- Behind its first name a library list is read as the names of a table are. -/
theorem readNames_map (entries : Array (UInt32 × String)) (hentries : entries ≠ #[])
    (bound : Nat) :
    readNames (entries.map (·.2)) bound =
      (NameTable.readEntries 0 Read.prefixedName entries bound >>= fun t => pure t.names) := by
  induction bound generalizing entries with
  | zero => simp [readNames, NameTable.readEntries, NameTable.names]
  | succ bound ih =>
    have hfirst : (entries.map (·.2)).isEmpty = false := by simpa using hentries
    have hdone : pure (entries.map (·.2)).toList =
        ((pure ⟨entries.toList⟩ : Read NameTable) >>= fun t => pure t.names) := by
      simp [NameTable.names]
    have hpush (offset : UInt32) (text : String) :=
      ih (entries.push (offset, text)) (by simp)
    simp only [Array.map_push] at hpush
    unfold readNames NameTable.readEntries
    rw [bind_assoc]
    refine bind_congr fun left => ?_
    by_cases hleft : left = 0
    · rw [if_pos hleft, if_pos hleft, hdone]
    rw [if_neg hleft, if_neg hleft, bind_assoc]
    -- the position is asked for and never used
    funext c
    show _ = EStateM.bind Read.position _ c
    show _ = ((Read.prefixedName >>= _) >>= _) c
    rw [bind_assoc]
    refine congrFun (bind_congr fun text => ?_) c
    by_cases hempty : text.isEmpty = true
    · rw [if_pos (by simp [hempty, hfirst]), if_pos hempty, hdone]
    · rw [if_neg (by simp [hempty]), if_neg hempty]
      exact hpush _ text

theorem readNames_eq_ok (first : String) {bound : Nat} (hc : c.Inside)
    (hbound : c.remaining ≤ bound) :
    readNames #[first] bound c = .ok found c' ↔
      ∃ names tail, prefixed.Row c.rest names tail ∧
        found = first :: names.map Text.Lossy.decode ∧
        c' = c.moveTo (c.pos + (names.flatMap prefixedBytes).length + min 1 tail.length) := by
  have hentries : #[first] = #[((0 : UInt32), first)].map (·.2) := by simp
  rw [hentries, readNames_map _ (by simp), Read.bind_eq_ok]
  simp only [NameTable.readEntries_eq_ok prefixed.length_pos_of_stores Read.takes_prefixedName _ _
      hc hbound,
    NameFormat.lists_iff_row hc.2.2 hc.2.1 (Nat.zero_le _), Read.pure_eq_ok]
  constructor
  · rintro ⟨_, _, ⟨_, _, ⟨names, tail, hrow, rfl, rfl⟩, rfl, rfl⟩, rfl, rfl⟩
    refine ⟨names, tail, hrow, ?_, rfl⟩
    rw [← NameFormat.map_snd_entriesFrom (c.pos - 0)]
    rfl
  · rintro ⟨names, tail, hrow, rfl, rfl⟩
    refine ⟨_, _, ⟨_, _, ⟨names, tail, hrow, rfl, rfl⟩, rfl, rfl⟩, ?_, rfl⟩
    rw [← NameFormat.map_snd_entriesFrom (c.pos - 0)]
    rfl

/-- The first name is read whatever it is, and a row of names behind it. -/
theorem read_eq_ok (hc : c.Inside) :
    read c = .ok found c' ↔
      ∃ names tail, Stored c.rest names tail ∧ found = names.map Text.Lossy.decode ∧
        c' = c.moveTo (c.pos + (names.flatMap prefixedBytes).length + min 1 tail.length) := by
  rw [read, Read.remaining_bind_eq_ok]
  cases hleft : c.remaining with
  | zero =>
    have hrest : c.rest = [] := by
      rw [Cursor.rest, hleft]
      rfl
    rw [readNames, Read.pure_eq_ok, hrest]
    constructor
    · rintro ⟨rfl, rfl⟩
      exact ⟨[], [], Stored.nil_iff.2 ⟨rfl, rfl⟩, rfl, rfl⟩
    · rintro ⟨names, tail, hstored, rfl, rfl⟩
      obtain ⟨rfl, rfl⟩ := hstored.unique (Stored.nil_iff.2 ⟨rfl, rfl⟩)
      exact ⟨rfl, rfl⟩
  | succ bound =>
    unfold readNames
    rw [Read.remaining_bind_eq_ok, if_neg (by omega), Read.bind_eq_ok]
    simp only [Read.takes_prefixedName c hc]
    constructor
    · rintro ⟨_, _, ⟨_, ⟨name, hname, rfl, rfl⟩, hfits, hholds, rfl⟩, hnames⟩
      obtain ⟨hinside, hless⟩ := NameTable.inside_of_stored prefixed.length_pos_of_stores
        ⟨name, hname, rfl, rfl⟩ hc hfits
      rw [if_neg (by simp)] at hnames
      obtain ⟨names, tail, hrow, rfl, rfl⟩ :=
        (readNames_eq_ok _ hinside (by omega)).1 hnames
      have hcontent := (Cursor.rest_eq_append_iff hc).2 ⟨hfits, hholds, rfl⟩
      refine ⟨name :: names, tail, Stored.cons_iff.2 ⟨hname, _, hcontent, hrow⟩, rfl, ?_⟩
      rw [List.flatMap_cons, List.length_append, ← Nat.add_assoc c.pos]
      rfl
    · rintro ⟨names, tail, hstored, rfl, rfl⟩
      cases names with
      | nil =>
        have hlength := congrArg List.length (Stored.nil_iff.1 hstored).1
        rw [Cursor.rest, length_bytesAt, hleft] at hlength
        cases hlength
      | cons name names =>
        obtain ⟨hname, rest, hcontent, hrow⟩ := Stored.cons_iff.1 hstored
        obtain ⟨hfits, hholds, rfl⟩ := (Cursor.rest_eq_append_iff hc).1 hcontent
        obtain ⟨hinside, hless⟩ := NameTable.inside_of_stored prefixed.length_pos_of_stores
          ⟨name, hname, rfl, rfl⟩ hc hfits
        refine ⟨_, _, ⟨_, ⟨name, hname, rfl, rfl⟩, hfits, hholds, rfl⟩, ?_⟩
        rw [if_neg (by simp)]
        refine (readNames_eq_ok _ hinside (by omega)).2 ⟨names, tail, hrow, rfl, ?_⟩
        rw [List.flatMap_cons, List.length_append, ← Nat.add_assoc c.pos]
        rfl

/-- The names of a list are stored in their order. -/
theorem stored_of_names {names : List String} {content tail : List UInt8}
    (hshort : ∀ name ∈ names, name.utf8ByteSize ≤ 255) (hnonempty : ∀ name ∈ names.tail, name ≠ "")
    (hends : tail = [] ∨ names ≠ [] ∧ tail.head? = some 0)
    (hcontent : content =
      names.flatMap (fun name => prefixedBytes (Text.Lossy.encode name)) ++ tail) :
    Stored content (names.map Text.Lossy.encode) tail := by
  refine ⟨?_, ?_, ?_, ?_⟩
  · rw [hcontent, List.flatMap_map]
  · rw [List.forall_mem_map]
    intro name hname
    rw [Text.Lossy.length_encode]
    exact hshort name hname
  · rw [← List.map_tail, List.forall_mem_map]
    intro name hname hencode
    have hdecode := Text.Lossy.decode_encode name
    rw [hencode] at hdecode
    exact hnonempty name hname hdecode.symm
  · simpa using hends

/-- **Library lists are what the reader accepts.** A content is read if it is made up of names
behind their lengths, of which only the first may be empty, and of a tail that is empty or, behind a
name, begins with a zero byte. There is one way to see it so, the reading gives the names in order
and stops behind the first byte of the tail, and any other content is reported to leave the window.
So every list of names that can be stored is read back, with each name in its place. -/
theorem read_ok_iff_stored (hc : c.Inside) :
    ((∃ found c', read c = .ok found c') ↔ ∃ names tail, Stored c.rest names tail) ∧
    (∀ names tail, Stored c.rest names tail →
      (∀ names' tail', Stored c.rest names' tail' → names' = names ∧ tail' = tail) ∧
      read c = .ok (names.map Text.Lossy.decode)
        (c.moveTo (c.pos + (names.flatMap prefixedBytes).length + min 1 tail.length))) ∧
    ((¬ ∃ names tail, Stored c.rest names tail) →
      ∃ position length c', read c = .error (.outOfBounds position length c.limit) c') ∧
    ∀ (names : List String) (tail : List UInt8), (∀ name ∈ names, name.utf8ByteSize ≤ 255) →
      (∀ name ∈ names.tail, name ≠ "") → (tail = [] ∨ names ≠ [] ∧ tail.head? = some 0) →
      c.rest = names.flatMap (fun name => prefixedBytes (Text.Lossy.encode name)) ++ tail →
      ∃ c', read c = .ok names c' := by
  have hok : (∃ found c', read c = .ok found c') ↔ ∃ names tail, Stored c.rest names tail := by
    simp only [read_eq_ok hc]
    constructor
    · rintro ⟨_, _, names, tail, hstored, -, -⟩
      exact ⟨names, tail, hstored⟩
    · rintro ⟨names, tail, hstored⟩
      exact ⟨_, _, names, tail, hstored, rfl, rfl⟩
  refine ⟨hok, fun names tail hstored => ⟨fun _ _ => hstored.unique, ?_⟩, fun hnone => ?_, ?_⟩
  · exact (read_eq_ok hc).2 ⟨names, tail, hstored, rfl, rfl⟩
  · exact Read.Reports.outOfBounds reports_read hc (hok.not.2 hnone)
  · intro names tail hshort hnonempty hends hcontent
    have hstored := stored_of_names hshort hnonempty hends hcontent
    refine ⟨_, (read_eq_ok hc).2 ⟨_, tail, hstored, ?_, rfl⟩⟩
    simp [Function.comp_def, Text.Lossy.decode_encode]

/-- A window behind one byte: an empty name, two more, an empty one and a byte behind it. -/
def paddedList : ByteArray :=
  ⟨#[9, 0, 3, 97, 195, 159, 1, 98, 0, 77, 9]⟩

theorem read_ok_iff_stored_paddedList :
    let c : Cursor := ⟨paddedList, 1, 10, 1⟩
    c.Inside ∧ ∃ c', read c = .ok ["", "aß", "b"] c' := by
  intro c
  have inside : c.Inside := by decide
  obtain ⟨-, -, -, write⟩ := read_ok_iff_stored inside
  exact ⟨inside, write ["", "aß", "b"] [0, 77] (by decide) (by decide) (by decide)
    (by decide +kernel)⟩

end CodeView.LibraryList
