import CodeView.Proofs.NameTable
import CodeView.Proofs.Text.Lossy

/-!
# Rows of names

A row is a content that is made up of names, each stored in one format, and of a tail behind them:
nothing, or bytes that begin with the zero byte of an empty name. `NameFormat.Row.unique` says that
a content can be taken apart in one way only, and `NameFormat.lists_iff_row` that the names which
are listed from a position on are those of the row that begins there.
-/

namespace CodeView

/-! ## Formats -/

/-- A way to store a name so that its end can be told. The empty name is stored as a zero byte, and
what is stored for another name begins with another byte. -/
structure NameFormat where
  /-- whether the bytes can be a name -/
  Allows : List UInt8 → Prop
  /-- the bytes that are stored for a name -/
  encode : List UInt8 → List UInt8
  allows_nil : Allows []
  encode_nil : encode [] = [0]
  encode_of_ne_nil : ∀ {name}, Allows name → name ≠ [] → ∃ b rest, encode name = b :: rest ∧ b ≠ 0
  encode_append_inj : ∀ {name name' rest rest'}, Allows name → Allows name' →
    encode name ++ rest = encode name' ++ rest' → name = name' ∧ rest = rest'

theorem terminatedBytes_append_inj {name name' rest rest' : List UInt8} (hname : 0 ∉ name)
    (hname' : 0 ∉ name') (h : terminatedBytes name ++ rest = terminatedBytes name' ++ rest') :
    name = name' ∧ rest = rest' := by
  simp only [terminatedBytes, List.append_assoc, List.singleton_append] at h
  induction name generalizing name' with
  | nil =>
    cases name' with
    | nil => exact ⟨rfl, (List.cons.inj h).2⟩
    | cons b more => exact absurd ((List.cons.inj h).1 ▸ List.mem_cons_self) hname'
  | cons b more ih =>
    cases name' with
    | nil => exact absurd ((List.cons.inj h).1 ▸ List.mem_cons_self) hname
    | cons b' more' =>
      obtain ⟨rfl, hmore⟩ := List.cons.inj h
      obtain ⟨rfl, hrest⟩ := ih (List.not_mem_of_not_mem_cons hname)
        (List.not_mem_of_not_mem_cons hname') hmore
      exact ⟨rfl, hrest⟩

/-- The length that a byte counts. -/
theorem toNat_ofNat_length {name : List UInt8} (h : name.length < 256) :
    (UInt8.ofNat name.length).toNat = name.length :=
  UInt8.toNat_ofNat_of_lt' h

theorem prefixedBytes_append_inj {name name' rest rest' : List UInt8} (hname : name.length < 256)
    (hname' : name'.length < 256)
    (h : prefixedBytes name ++ rest = prefixedBytes name' ++ rest') :
    name = name' ∧ rest = rest' := by
  obtain ⟨hcount, hbytes⟩ := List.cons.inj h
  have hlength : name.length = name'.length := by
    rw [← toNat_ofNat_length hname, hcount, toNat_ofNat_length hname']
  exact List.append_inj hbytes hlength

namespace NameFormat

/-- Names before a zero byte, which they do not hold. -/
def terminated : NameFormat where
  Allows name := 0 ∉ name
  encode := terminatedBytes
  allows_nil := List.not_mem_nil
  encode_nil := rfl
  encode_of_ne_nil {name} hname hne := by
    cases name with
    | nil => exact absurd rfl hne
    | cons b more => exact ⟨b, more ++ [0], rfl, fun hb => hname (hb ▸ List.mem_cons_self)⟩
  encode_append_inj := terminatedBytes_append_inj

/-- Names behind a byte that counts theirs. -/
def prefixed : NameFormat where
  Allows name := name.length < 256
  encode := prefixedBytes
  allows_nil := by decide
  encode_nil := rfl
  encode_of_ne_nil {name} hname hne := by
    refine ⟨_, name, rfl, fun hzero => hne (List.eq_nil_of_length_eq_zero ?_)⟩
    rw [← toNat_ofNat_length hname, hzero]
    rfl
  encode_append_inj := prefixedBytes_append_inj

variable (format : NameFormat)

/-- The bytes store the text in the format. -/
def Stores (taken : List UInt8) (text : String) : Prop :=
  ∃ name, format.Allows name ∧ taken = format.encode name ∧ text = Text.Lossy.decode name

/-- A content that is made up of names and a tail. -/
structure Row (content : List UInt8) (names : List (List UInt8)) (tail : List UInt8) : Prop where
  eq : content = names.flatMap format.encode ++ tail
  allowed : ∀ name ∈ names, format.Allows name
  nonempty : ∀ name ∈ names, name ≠ []
  ends : tail = [] ∨ tail.head? = some 0

/-- The entries of the names in a row whose first begins at an offset. -/
def entriesFrom : (offset : Nat) → List (List UInt8) → List (UInt32 × String)
  | _, [] => []
  | offset, name :: rest =>
    (NameTable.offsetOf offset, Text.Lossy.decode name) ::
      entriesFrom (offset + (format.encode name).length) rest

variable {format}

theorem length_encode_pos {name : List UInt8} (h : format.Allows name) :
    0 < (format.encode name).length := by
  by_cases hname : name = []
  · rw [hname, format.encode_nil]
    exact Nat.one_pos
  · obtain ⟨b, rest, hencode, -⟩ := format.encode_of_ne_nil h hname
    rw [hencode]
    exact Nat.succ_pos _

theorem length_pos_of_stores (format : NameFormat) (taken : List UInt8) (text : String)
    (h : format.Stores taken text) : 0 < taken.length := by
  obtain ⟨name, hname, rfl, -⟩ := h
  exact length_encode_pos hname

/-! ## Taking a content apart -/

namespace Row

variable {content rest tail tail' name : List UInt8} {names names' : List (List UInt8)}

theorem cons_iff :
    format.Row content (name :: names) tail ↔
      format.Allows name ∧ name ≠ [] ∧
        ∃ rest, content = format.encode name ++ rest ∧ format.Row rest names tail := by
  constructor
  · rintro ⟨rfl, hallowed, hnonempty, hends⟩
    rw [List.forall_mem_cons] at hallowed hnonempty
    refine ⟨hallowed.1, hnonempty.1, _, ?_, ⟨rfl, hallowed.2, hnonempty.2, hends⟩⟩
    rw [List.flatMap_cons, List.append_assoc]
  · rintro ⟨hname, hne, rest, rfl, ⟨rfl, hallowed, hnonempty, hends⟩⟩
    refine ⟨?_, List.forall_mem_cons.2 ⟨hname, hallowed⟩, List.forall_mem_cons.2 ⟨hne, hnonempty⟩,
      hends⟩
    rw [List.flatMap_cons, List.append_assoc]

theorem nil_iff :
    format.Row content [] tail ↔ content = tail ∧ (tail = [] ∨ tail.head? = some 0) := by
  constructor
  · rintro ⟨heq, -, -, hends⟩
    exact ⟨heq, hends⟩
  · rintro ⟨heq, hends⟩
    exact ⟨heq, by simp, by simp, hends⟩

/-- A tail is not a name and does not begin with one. -/
theorem not_nil_of_cons (h : format.Row content (name :: names) tail) :
    ¬ format.Row content [] tail' := by
  obtain ⟨hname, hne, rest, hcontent, -⟩ := cons_iff.1 h
  obtain ⟨b, more, hencode, hb⟩ := format.encode_of_ne_nil hname hne
  rw [hencode] at hcontent
  intro htail
  obtain ⟨rfl, rfl | hzero⟩ := nil_iff.1 htail
  · cases hcontent
  · rw [hcontent] at hzero
    exact hb (Option.some.inj hzero)

/-- A content is made up of names and a tail in one way only. -/
theorem unique (h : format.Row content names tail) (h' : format.Row content names' tail') :
    names' = names ∧ tail' = tail := by
  induction names generalizing content names' with
  | nil =>
    cases names' with
    | nil => exact ⟨rfl, ((nil_iff.1 h').1.symm.trans (nil_iff.1 h).1)⟩
    | cons name' names' => exact absurd h h'.not_nil_of_cons
  | cons name names ih =>
    cases names' with
    | nil => exact absurd h' h.not_nil_of_cons
    | cons name' names' =>
      obtain ⟨hname, -, rest, rfl, hrest⟩ := cons_iff.1 h
      obtain ⟨hname', -, rest', heq, hrest'⟩ := cons_iff.1 h'
      obtain ⟨rfl, rfl⟩ := format.encode_append_inj hname hname' heq
      obtain ⟨rfl, rfl⟩ := ih hrest hrest'
      exact ⟨rfl, rfl⟩

end Row

/-! ## The entries of a row -/

theorem map_snd_entriesFrom (offset : Nat) (names : List (List UInt8)) :
    (format.entriesFrom offset names).map (·.2) = names.map Text.Lossy.decode := by
  induction names generalizing offset with
  | nil => rfl
  | cons name rest ih => simp [entriesFrom, ih]

/-- The entry of a name tells where the names before it end. -/
theorem mem_entriesFrom {start : Nat} {names : List (List UInt8)} {offset : UInt32}
    {text : String} :
    (offset, text) ∈ format.entriesFrom start names ↔
      ∃ i name, names[i]? = some name ∧ text = Text.Lossy.decode name ∧
        offset = NameTable.offsetOf (start + ((names.take i).flatMap format.encode).length) := by
  induction names generalizing start with
  | nil => simp [entriesFrom]
  | cons first rest ih =>
    rw [entriesFrom, List.mem_cons, ih]
    constructor
    · rintro (hentry | ⟨i, name, hname, rfl, rfl⟩)
      · cases hentry
        exact ⟨0, first, rfl, rfl, rfl⟩
      · refine ⟨i + 1, name, hname, rfl, ?_⟩
        rw [List.take_succ_cons, List.flatMap_cons, List.length_append, Nat.add_assoc]
    · rintro ⟨i, name, hname, rfl, rfl⟩
      cases i with
      | zero =>
        cases hname
        exact .inl rfl
      | succ i =>
        refine .inr ⟨i, name, hname, rfl, ?_⟩
        rw [List.take_succ_cons, List.flatMap_cons, List.length_append, Nat.add_assoc]

end NameFormat

/-! ## What is read in a row -/

/-- The bytes from the position of a cursor to the end of its window. -/
def Cursor.rest (c : Cursor) : List UInt8 :=
  bytesAt c.source c.pos c.remaining

/-- What comes first of the bytes up to a limit is held there, and the others behind it. -/
theorem bytesAt_eq_append_iff {source : ByteArray} {position limit : Nat}
    {taken others : List UInt8} (hposition : position ≤ limit) (hlimit : limit ≤ source.size) :
    bytesAt source position (limit - position) = taken ++ others ↔
      position + taken.length ≤ limit ∧ Holds source position taken ∧
        others = bytesAt source (position + taken.length)
          (limit - (position + taken.length)) := by
  constructor
  · intro h
    have hlength := congrArg List.length h
    rw [length_bytesAt, List.length_append] at hlength
    have hholds : Holds source position (taken ++ others) := by
      rw [← h]
      exact .of_bytesAt (by omega)
    have hothers := hholds.right.bytesAt_eq
    refine ⟨by omega, hholds.left, ?_⟩
    rw [← hothers]
    congr 1
    omega
  · rintro ⟨hfits, hholds, rfl⟩
    have hlength : limit - position = taken.length + (limit - (position + taken.length)) := by omega
    rw [hlength, bytesAt_add, hholds.bytesAt_eq]

theorem Cursor.rest_eq_append_iff {c : Cursor} (hc : c.Inside) {taken others : List UInt8} :
    c.rest = taken ++ others ↔
      c.pos + taken.length ≤ c.limit ∧ Holds c.source c.pos taken ∧
        others = (c.moveTo (c.pos + taken.length)).rest :=
  bytesAt_eq_append_iff hc.2.1 hc.2.2

namespace NameFormat

variable {format : NameFormat} {source : ByteArray} {limit origin position stop : Nat}
  {entries : List (UInt32 × String)}

theorem exists_row_of_lists (hlimit : limit ≤ source.size) (hposition : position ≤ limit)
    (horigin : origin ≤ position)
    (h : NameTable.Lists source limit format.Stores origin position entries stop) :
    ∃ names tail, format.Row (bytesAt source position (limit - position)) names tail ∧
      entries = format.entriesFrom (position - origin) names ∧
      stop = position + (names.flatMap format.encode).length + min 1 tail.length := by
  induction h with
  | full => exact ⟨[], [], Row.nil_iff.2 ⟨by rw [Nat.sub_self]; rfl, .inl rfl⟩, rfl, rfl⟩
  | @padded position taken hempty hfits hholds =>
    obtain ⟨name, -, rfl, htext⟩ := hempty
    obtain rfl := Text.Lossy.decode_eq_empty_iff.1 htext.symm
    rw [format.encode_nil] at hfits hholds ⊢
    have hcontent := (bytesAt_eq_append_iff hposition hlimit).2 ⟨hfits, hholds, rfl⟩
    refine ⟨[], _, Row.nil_iff.2 ⟨hcontent, .inr rfl⟩, rfl, ?_⟩
    simp
  | @name position stop taken text rest hstored hne hfits hholds hothers ih =>
    obtain ⟨name, hname, rfl, rfl⟩ := hstored
    have hnonempty : name ≠ [] := fun h => hne (Text.Lossy.decode_eq_empty_iff.2 h)
    obtain ⟨names, tail, hrow, rfl, rfl⟩ := ih hfits (by omega)
    have hcontent := (bytesAt_eq_append_iff hposition hlimit).2 ⟨hfits, hholds, rfl⟩
    refine ⟨name :: names, tail, Row.cons_iff.2 ⟨hname, hnonempty, _, hcontent, hrow⟩, ?_, ?_⟩
    · rw [entriesFrom, Nat.sub_add_comm horigin]
    · rw [List.flatMap_cons, List.length_append, Nat.add_assoc position]

theorem lists_of_row {names : List (List UInt8)} {tail : List UInt8} (hlimit : limit ≤ source.size)
    (hposition : position ≤ limit) (horigin : origin ≤ position)
    (h : format.Row (bytesAt source position (limit - position)) names tail) :
    NameTable.Lists source limit format.Stores origin position
      (format.entriesFrom (position - origin) names)
      (position + (names.flatMap format.encode).length + min 1 tail.length) := by
  induction names generalizing position with
  | nil =>
    obtain ⟨hcontent, hends⟩ := Row.nil_iff.1 h
    cases tail with
    | nil =>
      have hlength := congrArg List.length hcontent
      rw [length_bytesAt, List.length_nil] at hlength
      obtain rfl : position = limit := by omega
      exact .full
    | cons b tail =>
      obtain rfl : b = 0 := by simpa using hends
      rw [← List.singleton_append, ← format.encode_nil] at hcontent
      obtain ⟨hfits, hholds, -⟩ := (bytesAt_eq_append_iff hposition hlimit).1 hcontent
      have hpadded : NameTable.Lists source limit format.Stores origin position [] _ :=
        .padded ⟨[], format.allows_nil, rfl, rfl⟩ hfits hholds
      rw [format.encode_nil] at hpadded
      simpa [entriesFrom] using hpadded
  | cons name names ih =>
    obtain ⟨hname, hne, rest, hcontent, hrow⟩ := Row.cons_iff.1 h
    obtain ⟨hfits, hholds, rfl⟩ := (bytesAt_eq_append_iff hposition hlimit).1 hcontent
    have htext : Text.Lossy.decode name ≠ "" := fun h => hne (Text.Lossy.decode_eq_empty_iff.1 h)
    have hlists := NameTable.Lists.name ⟨name, hname, rfl, rfl⟩ htext hfits hholds
      (ih hfits (by omega) hrow)
    rw [entriesFrom, ← Nat.sub_add_comm horigin, List.flatMap_cons, List.length_append,
      ← Nat.add_assoc position]
    exact hlists

/-- The names that are listed from a position on are those of the row that begins there, and the
listing stops behind the names, or behind the zero byte of the tail. -/
theorem lists_iff_row (hlimit : limit ≤ source.size) (hposition : position ≤ limit)
    (horigin : origin ≤ position) :
    NameTable.Lists source limit format.Stores origin position entries stop ↔
      ∃ names tail, format.Row (bytesAt source position (limit - position)) names tail ∧
        entries = format.entriesFrom (position - origin) names ∧
        stop = position + (names.flatMap format.encode).length + min 1 tail.length := by
  constructor
  · exact exists_row_of_lists hlimit hposition horigin
  · rintro ⟨names, tail, hrow, rfl, rfl⟩
    exact lists_of_row hlimit hposition horigin hrow

end NameFormat

end CodeView
