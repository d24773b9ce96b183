import CodeView.Proofs.Resolver.Exclusive
import CodeView.Proofs.Resolver.Line

/-!
# From an offset to its line and back

The line of an offset leads back to an offset, and there the same file answers with the line that
its table has last for that offset (`Resolver.resolveAddress_of_resolveLine`). This is the line
asked for if no table has two lines for one offset. Where a table repeats an offset, it may be
another: `Resolver.resolveAddress_repeatedOffset`.
-/

namespace CodeView

namespace LineTable

variable {t : LineTable} {offset : UInt32} {line : UInt16}

/-- No two lines begin at one offset. -/
def Unambiguous (t : LineTable) : Prop :=
  ∀ e ∈ t.entries, ∀ e' ∈ t.entries, e.1 = e'.1 → e.2 = e'.2

instance (t : LineTable) : Decidable t.Unambiguous :=
  -- the entries are finitely many, and so are all pairs of words, which are not to be tried
  have : ∀ e : UInt32 × UInt16, Decidable (∀ e' ∈ t.entries, e.1 = e'.1 → e.2 = e'.2) :=
    fun _ => List.decidableBAll _ t.entries
  List.decidableBAll _ t.entries

theorem mem_entries_of_offsetOf? (h : t.offsetOf? line = some offset) :
    (offset, line) ∈ t.entries := by
  rw [offsetOf?_eq_find?, Option.map_eq_some_iff] at h
  obtain ⟨⟨start, recorded⟩, hfind, rfl⟩ := h
  obtain rfl : recorded = line := by simpa using List.find?_some hfind
  exact List.mem_of_find?_eq_some hfind

end LineTable

namespace Resolver

/-- Every table has its entries within its own range, and different tables have ranges that do not
meet. -/
structure Separate (r : Resolver) : Prop where
  inside : ∀ x ∈ r.tables, ∀ e ∈ x.2.entries, x.2.first ≤ e.1 ∧ e.1 ≤ x.2.last
  apart : ∀ x ∈ r.tables, ∀ y ∈ r.tables, x ≠ y → x.2.last < y.2.first ∨ y.2.last < x.2.first

instance (r : Resolver) : Decidable r.Separate :=
  have : ∀ x : SourceFile × LineTable,
      Decidable (∀ e ∈ x.2.entries, x.2.first ≤ e.1 ∧ e.1 ≤ x.2.last) :=
    fun x => List.decidableBAll _ x.2.entries
  decidable_of_iff
    ((∀ x ∈ r.tables, ∀ e ∈ x.2.entries, x.2.first ≤ e.1 ∧ e.1 ≤ x.2.last) ∧
      ∀ x ∈ r.tables, ∀ y ∈ r.tables, x ≠ y → x.2.last < y.2.first ∨ y.2.last < x.2.first)
    ⟨fun ⟨inside, apart⟩ => ⟨inside, apart⟩, fun h => ⟨h.inside, h.apart⟩⟩

theorem Separate.exclusive {r : Resolver} (h : r.Separate) : r.Exclusive :=
  fun x hx y hy hxy _ _ => h.apart x hx y hy hxy

/-- What is found for a line is recorded in a file of that name. -/
theorem Serves.mem_of_resolveLine {r : Resolver} {modules : List SourceModule}
    (h : r.Serves modules) {name : String} {line : UInt16} {offset : UInt32}
    (hfound : (r.resolveLine name line).1 = some offset) :
    ∃ file t, (file, t) ∈ (ofModules modules).tables ∧ file.name = name ∧
      (offset, line) ∈ t.entries := by
  rw [h.resolveLine] at hfound
  obtain ⟨file, hfile, hfound⟩ := List.exists_of_findSome?_eq_some hfound
  obtain ⟨m, hm, hfile⟩ := List.mem_flatMap.1 hfile
  split at hfound
  case isFalse => cases hfound
  case isTrue hname =>
    obtain ⟨t, ht, hfound⟩ := List.exists_of_findSome?_eq_some hfound
    exact ⟨file, t, mem_tables.2 ⟨m, hm, hfile, ht⟩, eq_of_beq hname,
      LineTable.mem_entries_of_offsetOf? hfound⟩

/-- The line of an offset can be looked up. -/
theorem exists_resolveLine {modules : List SourceModule}
    (hmodules : ∀ m ∈ modules, m.WellFormed) {offset : UInt32} {l : Location}
    (hfound : (ofModules modules).resolveAddress offset = some l) :
    ∃ start, ((ofModules modules).resolveLine l.file l.line).1 = some start := by
  obtain ⟨p, file, t, hfirst, index, line, hselects, hline, rfl⟩ :=
    (resolveAddress_eq_some_iff hmodules).1 hfound
  obtain ⟨m, hm, hfile, ht⟩ := mem_of_at hfirst.at_place
  have hinside := hselects.inside
  have hstart : t.offsets[index]? = some t.offsets[index] := Array.getElem?_eq_getElem hinside
  have hentry : (t.offsets[index], line) ∈ t.entries :=
    List.mem_of_getElem? (LineTable.getElem?_entries.2 ⟨hstart, hline⟩)
  rw [(serves_ofModules modules).resolveLine_eq_scanLine]
  cases hscan : (ofModules modules).scanLine file.name line with
  | none =>
    rw [scanLine_eq_none_iff] at hscan
    exact absurd rfl (hscan m hm file hfile rfl t ht _ hentry)
  | some start => exact ⟨start, rfl⟩

/-- **There and back.** If an offset has a line, the line has an offset, and it is in the same
file. There the file answers with the line that it records last at that offset, which is the one
that was looked up unless some table has two lines for one offset. -/
theorem resolveAddress_of_resolveLine (modules : List SourceModule)
    (hmodules : ∀ m ∈ modules, m.WellFormed) (hseparate : (ofModules modules).Separate)
    (offset : UInt32) (l : Location)
    (hfound : (ofModules modules).resolveAddress offset = some l) :
    ∃ start l', ((ofModules modules).resolveLine l.file l.line).1 = some start ∧
      (ofModules modules).resolveAddress start = some l' ∧ l'.file = l.file ∧
      (∃ file t, (file, t) ∈ (ofModules modules).tables ∧ file.name = l.file ∧
        (start, l.line) ∈ t.entries ∧ t.RecordsLast start l'.line) ∧
      ((∀ x ∈ (ofModules modules).tables, x.2.Unambiguous) → l'.line = l.line) := by
  obtain ⟨start, hstart⟩ := exists_resolveLine hmodules hfound
  obtain ⟨file, t, hmem, hname, hentry⟩ := (serves_ofModules modules).mem_of_resolveLine hstart
  -- the offset that is found lies in the table that records it, so that table answers there
  have hcovers : t.Covers start := by
    obtain ⟨hfirst, hlast⟩ := hseparate.inside _ hmem _ hentry
    exact ⟨LineTable.size_ne_zero_of_mem hentry, hfirst, hlast⟩
  obtain ⟨l', hl', index, line, hselects, hline, rfl⟩ :=
    hseparate.exclusive.resolveAddress_of_covers hmodules hmem hcovers
  have hwell : t.WellFormed := by
    obtain ⟨m, hm, hfile, ht⟩ := mem_tables.1 hmem
    exact hmodules m hm file hfile t ht
  have hlast : t.RecordsLast start line := hselects.recordsLast hwell hline hentry
  refine ⟨start, _, hstart, hl', hname, ⟨file, t, hmem, hname, hentry, hlast⟩, ?_⟩
  intro hunambiguous
  exact hunambiguous _ hmem _ hlast.mem _ hentry rfl

/-- Two files of one name, in two modules, one of which repeats an offset and a line. -/
def sameName : List SourceModule :=
  [⟨[], [⟨"main.c", [⟨1, 50, 300, #[100, 100, 200], #[10, 10, 12]⟩]⟩]⟩,
    ⟨[], [⟨"main.c", [⟨1, 400, 500, #[400, 450], #[12, 10]⟩]⟩]⟩]

theorem resolveAddress_of_resolveLine_sameName :
    (∀ m ∈ sameName, m.WellFormed) ∧ (ofModules sameName).Separate ∧
      (ofModules sameName).resolveAddress 470 = some ⟨"main.c", 10, 1⟩ ∧
      ∃ start l', ((ofModules sameName).resolveLine "main.c" 10).1 = some start ∧
        (ofModules sameName).resolveAddress start = some l' ∧
        l'.file = "main.c" ∧ l'.line = 10 := by
  have wellFormed : ∀ m ∈ sameName, m.WellFormed := by decide +kernel
  have separate : (ofModules sameName).Separate := by decide +kernel
  have unambiguous : ∀ x ∈ (ofModules sameName).tables, x.2.Unambiguous := by decide +kernel
  have found : (ofModules sameName).resolveAddress 470 = some ⟨"main.c", 10, 1⟩ := by
    decide +kernel
  obtain ⟨start, l', hstart, hl', hfile, -, hline⟩ :=
    resolveAddress_of_resolveLine sameName wellFormed separate 470 _ found
  exact ⟨wellFormed, separate, found, start, l', hstart, hl', hfile, hline unambiguous⟩

/-- One table, in which an offset is repeated. -/
def repeatedOffset : List SourceModule :=
  [⟨[], [⟨"main.c", [⟨1, 50, 300, #[100, 100, 200], #[10, 11, 12]⟩]⟩]⟩]

/-- The line of offset 60 begins at offset 100, and there another line is recorded last. -/
theorem resolveAddress_repeatedOffset :
    (∀ m ∈ repeatedOffset, m.WellFormed) ∧ (ofModules repeatedOffset).Separate ∧
      (ofModules repeatedOffset).resolveAddress 60 = some ⟨"main.c", 10, 1⟩ ∧
      ((ofModules repeatedOffset).resolveLine "main.c" 10).1 = some 100 ∧
      (ofModules repeatedOffset).resolveAddress 100 = some ⟨"main.c", 11, 1⟩ := by
  have hline : (ofModules repeatedOffset).scanLine "main.c" 10 = some 100 := by decide +kernel
  refine ⟨by decide +kernel, by decide +kernel, by decide +kernel, ?_, by decide +kernel⟩
  rw [(serves_ofModules repeatedOffset).resolveLine_eq_scanLine, hline]

end Resolver

end CodeView
