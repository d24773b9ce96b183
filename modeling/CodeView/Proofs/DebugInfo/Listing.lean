import CodeView.DebugInfo
import CodeView.Proofs.Text.Number
import CodeView.Text.Pieces

/-!
# The listing of the line tables

A listing is a text of rows without any marks around the names in it, and no row says how many
others belong to it. It can be read back all the same: a row ends with a colon, a bracket or a
digit, by which it is known as that of a file, a line table or a pair, whatever a file is called,
and names without line feeds do not break rows. `listing_eq_iff` says that two listings are equal
exactly if they tell the same (`FileOutline`) of the same files.
-/

namespace CodeView

open Text (upperHexDigits pieces pieces_append_cons)

/-! ## What a listing tells -/

/-- What is listed of a line table: the claimed range and the pairs of offset and line. -/
structure TableOutline where
  first : UInt32
  last : UInt32
  entries : List (UInt32 × UInt16)
  deriving DecidableEq, Repr

/-- What is listed of a source file. -/
structure FileOutline where
  name : String
  tables : List TableOutline
  deriving DecidableEq, Repr

def LineTable.outline (t : LineTable) : TableOutline :=
  ⟨t.first, t.last, t.entries⟩

def SourceFile.outline (f : SourceFile) : FileOutline :=
  ⟨f.name, f.tables.map LineTable.outline⟩

/-- What is listed of the files of all source modules, in directory order. -/
def DebugInfo.outlines (info : DebugInfo) : List FileOutline :=
  info.files.map SourceFile.outline

/-! ## Rows -/

namespace Listing

/-- A row of a listing. -/
inductive Row
  | file (name : String)
  | table (k : Nat) (first last : UInt32)
  | entry (offset : UInt32) (line : UInt16)
  deriving DecidableEq, Repr

/-- The text of a row, without the line feed behind it. -/
def Row.text : Row → String
  | file name => name ++ ":"
  | table k first last => s!"\tSegment #{k} ({first} - {last})"
  | entry offset line => s!"\t\tLine {line} @ 0x{upperHexDigits 8 offset.toNat} = {offset}"

/-- Whether the row is that of a file. -/
def Row.isFile : Row → Bool
  | file _ => true
  | _ => false

/-- Whether the row is that of a line table. -/
def Row.isTable : Row → Bool
  | table .. => true
  | _ => false

/-- The rows of pairs. -/
def entryRows (t : TableOutline) : List Row :=
  t.entries.map fun entry => .entry entry.1 entry.2

/-- The rows of line tables, the first of which has the given number. -/
def tableRows (k : Nat) (tables : List TableOutline) : List Row :=
  (tables.zipIdx k).flatMap fun table =>
    .table table.2 table.1.first table.1.last :: entryRows table.1

/-- The rows of files. -/
def fileRows (files : List FileOutline) : List Row :=
  files.flatMap fun file => .file file.name :: tableRows 0 file.tables

/-- The lines of a listing, each with a line feed behind it. -/
def render (rows : List Row) : List Char :=
  rows.flatMap fun row => row.text.toList ++ ['\n']

/-! ## The listing is made up of rows -/

/-- Decimal digits. -/
def decimal (n : Nat) : List Char :=
  Nat.toDigits 10 n

theorem toList_tableText (k : Nat) (first last : UInt32) :
    (Row.table k first last).text.toList =
      "\tSegment #".toList ++ (decimal k ++ (" (".toList ++ (decimal first.toNat ++
        (" - ".toList ++ (decimal last.toNat ++ ")".toList))))) := by
  simp only [Row.text, decimal, ToString.toString, String.toList_append, Nat.toList_repr,
    List.append_assoc]

theorem toList_entryText (offset : UInt32) (line : UInt16) :
    (Row.entry offset line).text.toList =
      "\t\tLine ".toList ++ (decimal line.toNat ++ (" @ 0x".toList ++
        ((upperHexDigits 8 offset.toNat).toList ++ (" = ".toList ++ decimal offset.toNat)))) := by
  simp only [Row.text, decimal, ToString.toString, String.toList_append, Nat.toList_repr,
    List.append_assoc]

theorem toList_tableListing (t : LineTable) (k : Nat) :
    (t.listing k).toList =
      render (.table k t.outline.first t.outline.last :: entryRows t.outline) := by
  have head : (s!"\tSegment #{k} ({t.first} - {t.last})\n").toList =
      (Row.table k t.first t.last).text.toList ++ ['\n'] := by
    have bracket : ")\n".toList = ")".toList ++ ['\n'] := rfl
    simp only [toList_tableText, decimal, ToString.toString, String.toList_append,
      Nat.toList_repr, List.append_assoc, bracket]
  have entry (offset : UInt32) (line : UInt16) :
      (s!"\t\tLine {line} @ 0x{upperHexDigits 8 offset.toNat} = {offset}\n").toList =
        (Row.entry offset line).text.toList ++ ['\n'] := by
    have feed : "\n".toList = ['\n'] := rfl
    simp only [toList_entryText, decimal, ToString.toString, String.toList_append,
      Nat.toList_repr, List.append_assoc, feed]
  simp only [LineTable.listing, String.toList_join, List.flatMap_cons, head, render, entryRows,
    List.flatMap_map, entry, LineTable.outline]

theorem toList_fileListing (f : SourceFile) :
    f.listing.toList = render (.file f.outline.name :: tableRows 0 f.outline.tables) := by
  have head : (f.name ++ ":\n").toList = (Row.file f.name).text.toList ++ ['\n'] := by
    have colon : ":\n".toList = ":".toList ++ ['\n'] := rfl
    simp only [Row.text, String.toList_append, List.append_assoc, colon]
  simp only [SourceFile.listing, String.toList_join, List.flatMap_cons, head, render, tableRows,
    SourceFile.outline, List.zipIdx_map, List.flatMap_map, toList_tableListing, List.flatMap_assoc,
    Prod.map]
  rfl

theorem toList_listing (info : DebugInfo) :
    info.listing.toList = render (fileRows info.outlines) := by
  simp only [DebugInfo.listing, DebugInfo.outlines, String.toList_join, List.flatMap_map,
    toList_fileListing, render, fileRows, List.flatMap_assoc]

/-! ## Lines -/

/-- A stretch of items of one sort ends where another sort begins. -/
theorem append_inj_of_sort {α : Type} {p : α → Bool} {front front' rest rest' : List α}
    (hfront : ∀ a ∈ front, p a = true) (hfront' : ∀ a ∈ front', p a = true)
    (hrest : ∀ a ∈ rest.head?, p a = false) (hrest' : ∀ a ∈ rest'.head?, p a = false)
    (h : front ++ rest = front' ++ rest') : front = front' ∧ rest = rest' := by
  have htake {front rest : List α} (hfront : ∀ a ∈ front, p a = true)
      (hrest : ∀ a ∈ rest.head?, p a = false) : (front ++ rest).takeWhile p = front := by
    rw [List.takeWhile_append_of_pos hfront]
    cases rest with
    | nil => simp
    | cons a rest => simp [hrest a rfl]
  have heq : front = front' := by
    rw [← htake hfront hrest, h, htake hfront' hrest']
  subst heq
  exact ⟨rfl, List.append_cancel_left h⟩

/-- Lines that hold no line feed are the pieces between line feeds. -/
theorem pieces_render {rows : List Row} (h : ∀ row ∈ rows, '\n' ∉ row.text.toList) :
    pieces '\n' (render rows) = rows.map (fun row => row.text.toList) ++ [[]] := by
  induction rows with
  | nil => rfl
  | cons row rows ih =>
    have hrow : '\n' ∉ row.text.toList := h row List.mem_cons_self
    have hrows : ∀ row ∈ rows, '\n' ∉ row.text.toList := fun r hr => h r (List.mem_cons_of_mem _ hr)
    have hcons : render (row :: rows) = row.text.toList ++ '\n' :: render rows := by
      simp [render]
    rw [hcons, pieces_append_cons hrow, ih hrows, List.map_cons, List.cons_append]

/-! ## Digits -/

theorem isDigit_of_mem_decimal {c : Char} {n : Nat} (h : c ∈ decimal n) : c.isDigit = true :=
  Nat.isDigit_of_mem_toDigits (by decide) (by decide) h

theorem decimal_injective : Function.Injective decimal := by
  have numeral (n : Nat) : Text.Numeral 10 (decimal n) n :=
    .plain Nat.toDigits_ne_nil (Text.writes_toDigits (by decide) n)
  intro m n h
  have hm := numeral m
  rw [h] at hm
  exact (numeral n).unique (by decide) hm

theorem isAlphanum_of_mem_upperHexDigits {c : Char} {width n : Nat}
    (h : c ∈ (upperHexDigits width n).toList) : c.isAlphanum = true := by
  simp only [upperHexDigits, Text.padLeft, String.toList_ofList, List.mem_append,
    List.mem_replicate, List.mem_map] at h
  obtain ⟨-, rfl⟩ | ⟨digit, hdigit, rfl⟩ := h
  · decide
  · obtain ⟨digits, hdigits, -⟩ := Text.writes_toDigits (show 1 < 16 by decide) n
    obtain ⟨d, -, hlt, hd⟩ := exists_mem_of_forall₂ hdigits hdigit
    obtain rfl | rfl := hd
    all_goals interval_cases d <;> decide

/-! ## The rows of a text -/

theorem getLast?_fileText (name : String) :
    (Row.file name).text.toList.getLast? = some ':' := by
  simp [Row.text]

theorem getLast?_tableText (k : Nat) (first last : UInt32) :
    (Row.table k first last).text.toList.getLast? = some ')' := by
  have bracket : ")".toList.getLast? = some ')' := rfl
  simp only [toList_tableText, List.getLast?_append, bracket, Option.some_or]

theorem exists_getLast?_entryText (offset : UInt32) (line : UInt16) :
    ∃ c, (Row.entry offset line).text.toList.getLast? = some c ∧ c.isDigit = true := by
  have hne : decimal offset.toNat ≠ [] := Nat.toDigits_ne_nil
  refine ⟨(decimal offset.toNat).getLast hne, ?_, isDigit_of_mem_decimal (List.getLast_mem hne)⟩
  simp only [toList_entryText, List.getLast?_append, List.getLast?_eq_some_getLast hne,
    Option.some_or]

theorem isFile_iff {row : Row} : row.isFile = true ↔ row.text.toList.getLast? = some ':' := by
  cases row with
  | file name => simp [Row.isFile, getLast?_fileText]
  | table k first last => simp [Row.isFile, getLast?_tableText]
  | entry offset line =>
    obtain ⟨c, hc, hdigit⟩ := exists_getLast?_entryText offset line
    have hne : c ≠ ':' := by
      rintro rfl
      exact absurd hdigit (by decide)
    simp [Row.isFile, hc, hne]

theorem isTable_iff {row : Row} : row.isTable = true ↔ row.text.toList.getLast? = some ')' := by
  cases row with
  | file name => simp [Row.isTable, getLast?_fileText]
  | table k first last => simp [Row.isTable, getLast?_tableText]
  | entry offset line =>
    obtain ⟨c, hc, hdigit⟩ := exists_getLast?_entryText offset line
    have hne : c ≠ ')' := by
      rintro rfl
      exact absurd hdigit (by decide)
    simp [Row.isTable, hc, hne]

theorem tableText_inj {k k' : Nat} {first last first' last' : UInt32}
    (h : (Row.table k first last).text = (Row.table k' first' last').text) :
    Row.table k first last = Row.table k' first' last' := by
  have digits {n : Nat} : ∀ c ∈ decimal n, c.isDigit = true := fun c => isDigit_of_mem_decimal
  rw [← String.toList_inj, toList_tableText, toList_tableText] at h
  obtain ⟨hk, h⟩ := append_inj_of_sort digits digits (by simp) (by simp)
    (List.append_cancel_left h)
  obtain ⟨hfirst, h⟩ := append_inj_of_sort digits digits (by simp) (by simp)
    (List.append_cancel_left h)
  obtain ⟨hlast, -⟩ := append_inj_of_sort digits digits (by simp) (by simp)
    (List.append_cancel_left h)
  rw [decimal_injective hk, UInt32.toNat_inj.1 (decimal_injective hfirst),
    UInt32.toNat_inj.1 (decimal_injective hlast)]

theorem entryText_inj {offset offset' : UInt32} {line line' : UInt16}
    (h : (Row.entry offset line).text = (Row.entry offset' line').text) :
    Row.entry offset line = Row.entry offset' line' := by
  have digits {n : Nat} : ∀ c ∈ decimal n, c.isDigit = true := fun c => isDigit_of_mem_decimal
  have hexDigits {n : Nat} : ∀ c ∈ (upperHexDigits 8 n).toList, c.isAlphanum = true :=
    fun c => isAlphanum_of_mem_upperHexDigits
  rw [← String.toList_inj, toList_entryText, toList_entryText] at h
  obtain ⟨hline, h⟩ := append_inj_of_sort digits digits (by simp) (by simp)
    (List.append_cancel_left h)
  obtain ⟨-, h⟩ := append_inj_of_sort hexDigits hexDigits (by simp) (by simp)
    (List.append_cancel_left h)
  have hoffset := List.append_cancel_left h
  rw [UInt16.toNat_inj.1 (decimal_injective hline), UInt32.toNat_inj.1 (decimal_injective hoffset)]

/-- The text of a row tells which row it is. -/
theorem text_injective : Function.Injective Row.text := by
  intro row row' h
  have hfile : row.isFile = row'.isFile := by
    rw [Bool.eq_iff_iff, isFile_iff, isFile_iff, h]
  have htable : row.isTable = row'.isTable := by
    rw [Bool.eq_iff_iff, isTable_iff, isTable_iff, h]
  cases row <;> cases row' <;> try contradiction
  case file.file name name' =>
    have htext : name ++ ":" = name' ++ ":" := h
    rw [String.append_left_inj] at htext
    rw [htext]
  case table.table => exact tableText_inj h
  case entry.entry => exact entryText_inj h

/-- Only the name of a file can break a row. -/
theorem feed_not_mem_text {row : Row} (h : ∀ name, row = .file name → '\n' ∉ name.toList) :
    '\n' ∉ row.text.toList := by
  have digits (n : Nat) : '\n' ∉ decimal n :=
    fun hmem => absurd (isDigit_of_mem_decimal hmem) (by decide)
  have hexDigits (n : Nat) : '\n' ∉ (upperHexDigits 8 n).toList :=
    fun hmem => absurd (isAlphanum_of_mem_upperHexDigits hmem) (by decide)
  cases row with
  | file name => simpa [Row.text] using h name rfl
  | table k first last => simp [toList_tableText, digits]
  | entry offset line => simp [toList_entryText, digits, hexDigits]

/-- The lines of a listing tell its rows. -/
theorem render_inj {rows rows' : List Row} (h : ∀ row ∈ rows, '\n' ∉ row.text.toList)
    (h' : ∀ row ∈ rows', '\n' ∉ row.text.toList) (heq : render rows = render rows') :
    rows = rows' := by
  have hlines : rows.map (fun row => row.text.toList) = rows'.map fun row => row.text.toList := by
    have hpieces := congrArg (pieces '\n') heq
    rw [pieces_render h, pieces_render h'] at hpieces
    exact List.append_cancel_right hpieces
  refine List.map_injective_iff.2 (fun row row' hrow => ?_) hlines
  exact text_injective (String.toList_inj.1 hrow)

/-! ## Blocks of rows -/

/-- A list that is made up of blocks, each a head and a body without heads, falls into the same
blocks however it is read. -/
theorem forall₂_of_blocks {α β : Type} (isHead : β → Bool) {head : α → β} {body : α → List β}
    (hhead : ∀ a, isHead (head a) = true) (hbody : ∀ a, ∀ b ∈ body a, isHead b = false)
    {items items' : List α}
    (h : items.flatMap (fun a => head a :: body a) = items'.flatMap fun a => head a :: body a) :
    List.Forall₂ (fun a a' => head a = head a' ∧ body a = body a') items items' := by
  have hnext (items : List α) : ∀ b ∈ (items.flatMap fun a => head a :: body a).head?,
      isHead b = true := by
    cases items with
    | nil => simp
    | cons a items => simp [hhead]
  induction items generalizing items' with
  | nil =>
    cases items' with
    | nil => exact .nil
    | cons a' items' => simp at h
  | cons a items ih =>
    cases items' with
    | nil => simp at h
    | cons a' items' =>
      simp only [List.flatMap_cons, List.cons_append, List.cons.injEq] at h
      obtain ⟨hheads, hrest⟩ := h
      -- a body ends where the next head is
      have hnone (a : α) : ∀ b ∈ body a, (!isHead b) = true := by simpa using hbody a
      have hstop (items : List α) : ∀ b ∈ (items.flatMap fun a => head a :: body a).head?,
          (!isHead b) = false := by simpa using hnext items
      obtain ⟨hbodies, hitems⟩ :=
        append_inj_of_sort (hnone a) (hnone a') (hstop items) (hstop items') hrest
      exact .cons ⟨hheads, hbodies⟩ (ih hitems)

theorem entryRows_inj {t t' : TableOutline} (h : entryRows t = entryRows t') :
    t.entries = t'.entries := by
  refine List.map_injective_iff.2 (fun entry entry' heq => ?_) h
  injection heq with hoffset hline
  exact Prod.ext hoffset hline

theorem tableRows_injective (k : Nat) : Function.Injective (tableRows k) := by
  intro tables tables' h
  have hbody (table : TableOutline × Nat) : ∀ row ∈ entryRows table.1, row.isTable = false := by
    intro row hrow
    obtain ⟨entry, -, rfl⟩ := List.mem_map.1 hrow
    rfl
  have hblocks := forall₂_of_blocks Row.isTable (fun _ => rfl) hbody h
  have htables : List.Forall₂ (fun a a' : TableOutline × Nat => a.1 = a'.1) (tables.zipIdx k)
      (tables'.zipIdx k) := by
    refine hblocks.imp fun (t, i) (t', i') ⟨hhead, hrows⟩ => ?_
    obtain ⟨first, last, entries⟩ := t
    obtain ⟨first', last', entries'⟩ := t'
    have hentries : entries = entries' := entryRows_inj hrows
    cases hhead
    rw [hentries]
  rw [← List.zipIdx_map_fst k tables, ← List.zipIdx_map_fst k tables', ← List.forall₂_eq_eq_eq,
    List.forall₂_map_left_iff, List.forall₂_map_right_iff]
  exact htables

theorem fileRows_injective : Function.Injective fileRows := by
  intro files files' h
  have hbody (file : FileOutline) : ∀ row ∈ tableRows 0 file.tables, row.isFile = false := by
    simp only [tableRows, entryRows, List.mem_flatMap, List.mem_cons, List.mem_map]
    rintro row ⟨table, -, rfl | ⟨entry, -, rfl⟩⟩ <;> rfl
  have hblocks := forall₂_of_blocks Row.isFile (fun _ => rfl) hbody h
  rw [← List.forall₂_eq_eq_eq]
  refine hblocks.imp fun ⟨name, tables⟩ ⟨name', tables'⟩ ⟨hhead, hrows⟩ => ?_
  have htables : tables = tables' := tableRows_injective 0 hrows
  cases hhead
  rw [htables]

theorem name_of_mem_fileRows {files : List FileOutline} {name : String}
    (h : .file name ∈ fileRows files) : ∃ file ∈ files, file.name = name := by
  simp only [fileRows, tableRows, entryRows, List.mem_flatMap, List.mem_cons, List.mem_map] at h
  obtain ⟨file, hfile, hname | ⟨table, -, htable | ⟨entry, -, hentry⟩⟩⟩ := h
  · cases hname
    exact ⟨file, hfile, rfl⟩
  · cases htable
  · cases hentry

end Listing

namespace DebugInfo

variable {info info' : DebugInfo}

/-- The names break no row of a listing. -/
theorem feed_not_mem_rows (h : ∀ file ∈ info.files, '\n' ∉ file.name.toList) :
    ∀ row ∈ Listing.fileRows info.outlines, '\n' ∉ row.text.toList := by
  intro row hrow
  refine Listing.feed_not_mem_text ?_
  rintro name rfl
  obtain ⟨outline, houtline, rfl⟩ := Listing.name_of_mem_fileRows hrow
  obtain ⟨file, hfile, rfl⟩ := List.mem_map.1 houtline
  exact h file hfile

/-- **The listing loses nothing.** Where no file name holds a line feed, the listings of two results
are equal exactly if the files of all source modules, in directory order, have the same names, and
as many line tables with the same ranges and the same pairs of offset and line in the same order. -/
theorem listing_eq_iff (h : ∀ file ∈ info.files, '\n' ∉ file.name.toList)
    (h' : ∀ file ∈ info'.files, '\n' ∉ file.name.toList) :
    info.listing = info'.listing ↔ info.outlines = info'.outlines := by
  rw [← String.toList_inj, Listing.toList_listing, Listing.toList_listing]
  constructor
  · intro heq
    exact Listing.fileRows_injective
      (Listing.render_inj (feed_not_mem_rows h) (feed_not_mem_rows h') heq)
  · intro heq
    rw [heq]

/-- A result with source modules of the given files. -/
def ofFiles (modules : List (List SourceFile)) : DebugInfo where
  signature := .nb09
  base := 0
  header := ⟨16, 12, .ofNat modules.length, 0, 0⟩
  subsections := modules.zipIdx.map fun (files, i) =>
    ⟨i, ⟨.sourceModule, 1, 0, 0⟩, .sourceModule ⟨[], files⟩⟩
  issues := []

/-- A file that is called like the row of a line table, with such a table and an empty one. -/
def tableNamed (segment : UInt16) : SourceFile :=
  ⟨"\tSegment #0 (1 - 9)", [⟨segment, 1, 9, #[1, 4], #[7, 8]⟩, ⟨segment, 0, 0, #[], #[]⟩]⟩

/-- A file that is called like the row of a pair, with an empty line table. -/
def entryNamed : SourceFile :=
  ⟨"\t\tLine 7 @ 0x00000001 = 1", [⟨1, 1, 9, #[], #[]⟩]⟩

theorem listing_eq_iff_rowNamed :
    let together := ofFiles [[tableNamed 1, entryNamed]]
    let apart := ofFiles [[tableNamed 2], [], [entryNamed]]
    let reversed := ofFiles [[entryNamed, tableNamed 1]]
    (∀ files ∈ [together.files, apart.files, reversed.files],
        ∀ file ∈ files, '\n' ∉ file.name.toList) ∧
      together.listing = apart.listing ∧ together.listing ≠ reversed.listing := by
  intro together apart reversed
  have hnames : ∀ files ∈ [together.files, apart.files, reversed.files],
      ∀ file ∈ files, '\n' ∉ file.name.toList := by decide
  have htogether := hnames together.files (by simp)
  have hapart := hnames apart.files (by simp)
  have hreversed := hnames reversed.files (by simp)
  refine ⟨hnames, (listing_eq_iff htogether hapart).2 (by decide), fun h => ?_⟩
  exact absurd ((listing_eq_iff htogether hreversed).1 h) (by decide)

end DebugInfo

end CodeView
