import Mathlib.Data.List.Forall2
import CodeView.Proofs.Resolver.Address
import CodeView.Resolver.Scan

/-!
# Line tables that lie apart

Where the ranges of line tables with entries do not meet, no offset is covered by two of them, and
the order in which the tables are searched does not matter. `Resolver.resolveAddress_exclusive` says
which table then answers, and that no reordering changes an answer. Empty tables may lie anywhere.
-/

namespace CodeView

/-! ## Reordered modules -/

/-- The items of one list stand, in some order, for those of another. -/
def Reordered {α : Type} (stands : α → α → Prop) (items items' : List α) : Prop :=
  ∃ ordered, items.Perm ordered ∧ List.Forall₂ stands ordered items'

/-- The same file, with its tables in any order. -/
structure SourceFile.Reorders (file file' : SourceFile) : Prop where
  name : file'.name = file.name
  tables : file.tables.Perm file'.tables

/-- The same module, with its files, and the tables of each, in any order. -/
structure SourceModule.Reorders (m m' : SourceModule) : Prop where
  extents : m'.extents = m.extents
  files : Reordered SourceFile.Reorders m.files m'.files

namespace Reordered

variable {α : Type} {stands : α → α → Prop} {items items' : List α}

theorem exists_right (h : Reordered stands items items') {a : α} (ha : a ∈ items) :
    ∃ a' ∈ items', stands a a' := by
  obtain ⟨ordered, hperm, hstands⟩ := h
  exact exists_mem_of_forall₂ hstands (hperm.mem_iff.1 ha)

theorem exists_left (h : Reordered stands items items') {a' : α} (ha' : a' ∈ items') :
    ∃ a ∈ items, stands a a' := by
  obtain ⟨ordered, hperm, hstands⟩ := h
  obtain ⟨a, ha, hstands⟩ := exists_mem_of_forall₂ hstands.flip ha'
  exact ⟨a, hperm.mem_iff.2 ha, hstands⟩

end Reordered

namespace Resolver

variable {r : Resolver} {file : SourceFile} {t : LineTable} {offset : UInt32} {l : Location}

/-! ## Which locations there are -/

theorem mem_tables : (file, t) ∈ r.tables ↔ ∃ m ∈ r.modules, file ∈ m.files ∧ t ∈ file.tables := by
  simp only [tables, files, List.mem_flatMap, List.mem_map, Prod.mk.injEq]
  constructor
  · intro h
    obtain ⟨_, ⟨m, hm, hfile⟩, _, ht, rfl, rfl⟩ := h
    exact ⟨m, hm, hfile, ht⟩
  · intro h
    obtain ⟨m, hm, hfile, ht⟩ := h
    exact ⟨file, ⟨m, hm, hfile⟩, t, ht, rfl, rfl⟩

theorem resolveAddress_eq_findSome?_tables (r : Resolver) (offset : UInt32) :
    r.resolveAddress offset = r.tables.findSome? fun x => locate? x.1 offset x.2 := by
  rw [resolveAddress, tables, findSome?_flatMap]
  simp only [List.findSome?_map, Function.comp_def]

/-- Some table has this location for the offset. -/
def Offers (r : Resolver) (offset : UInt32) (l : Location) : Prop :=
  ∃ x ∈ r.tables, locate? x.1 offset x.2 = some l

/-- If the tables agree on an offset, any of them may be asked. -/
theorem resolveAddress_eq_some_iff_offers
    (unique : ∀ l l', r.Offers offset l → r.Offers offset l' → l = l') :
    r.resolveAddress offset = some l ↔ r.Offers offset l := by
  rw [resolveAddress_eq_findSome?_tables]
  apply findSome?_eq_some_iff_of_unique
  intro x hx y hy l l' hl hl'
  exact unique l l' ⟨x, hx, hl⟩ ⟨y, hy, hl'⟩

theorem covers_of_locate? (h : locate? file offset t = some l) : t.Covers offset := by
  unfold locate? at h
  split at h
  case isFalse => cases h
  case isTrue hcontains =>
    obtain ⟨hfirst, hlast⟩ := contains_iff.1 hcontains
    obtain ⟨line, hline, -⟩ := Option.map_eq_some_iff.1 h
    obtain ⟨hindex, -⟩ := Array.getElem?_eq_some_iff.1 hline
    exact ⟨Nat.ne_zero_of_lt hindex, hfirst, hlast⟩

/-! ## Tables that lie apart -/

/-- Different tables with entries have ranges that do not meet. -/
def Exclusive (r : Resolver) : Prop :=
  ∀ x ∈ r.tables, ∀ y ∈ r.tables, x ≠ y → x.2.lines.size ≠ 0 → y.2.lines.size ≠ 0 →
    x.2.last < y.2.first ∨ y.2.last < x.2.first

instance (r : Resolver) : Decidable r.Exclusive :=
  inferInstanceAs (Decidable (∀ x ∈ r.tables, ∀ y ∈ r.tables, _ → _ → _ → _))

namespace Exclusive

/-- Only one table covers an offset. -/
theorem eq_of_covers (h : r.Exclusive) {x y : SourceFile × LineTable} (hx : x ∈ r.tables)
    (hy : y ∈ r.tables) (hxcovers : x.2.Covers offset) (hycovers : y.2.Covers offset) : x = y := by
  by_cases hxy : x = y
  · exact hxy
  · rcases h x hx y hy hxy hxcovers.nonempty hycovers.nonempty with hlt | hlt
    · exact absurd (UInt32.lt_of_le_of_lt hxcovers.le_last hlt)
        (UInt32.not_lt.2 hycovers.first_le)
    · exact absurd (UInt32.lt_of_le_of_lt hycovers.le_last hlt)
        (UInt32.not_lt.2 hxcovers.first_le)

theorem offers_unique (h : r.Exclusive) {l' : Location} (hl : r.Offers offset l)
    (hl' : r.Offers offset l') : l = l' := by
  obtain ⟨x, hx, hl⟩ := hl
  obtain ⟨y, hy, hl'⟩ := hl'
  obtain rfl := h.eq_of_covers hx hy (covers_of_locate? hl) (covers_of_locate? hl')
  exact Option.some.inj (hl.symm.trans hl')

/-- A table answers for every offset that it covers. -/
theorem resolveAddress_of_covers (h : r.Exclusive) (hr : ∀ m ∈ r.modules, m.WellFormed)
    (hmem : (file, t) ∈ r.tables) (hcovers : t.Covers offset) :
    ∃ l, r.resolveAddress offset = some l ∧ LocatedIn file t offset l := by
  obtain ⟨m, hm, hfile, ht⟩ := mem_tables.1 hmem
  have hwell : t.WellFormed := hr m hm file hfile t ht
  cases hl : locate? file offset t with
  | none => exact absurd hcovers ((locate?_eq_none_iff hwell).1 hl)
  | some l =>
    refine ⟨l, ?_, ((locate?_eq_some_iff hwell).1 hl).2⟩
    exact (resolveAddress_eq_some_iff_offers fun _ _ => h.offers_unique).2 ⟨_, hmem, hl⟩

end Exclusive

/-! ## No order matters -/

section Order

variable {modules modules' : List SourceModule}

theorem locate?_congr {file' : SourceFile} (h : file'.name = file.name) :
    locate? file' offset t = locate? file offset t := by
  rw [locate?, locate?, h]

/-- Reordered modules have the same tables, each in a file of the same name. -/
theorem offers_iff_of_reordered (h : Reordered SourceModule.Reorders modules modules') :
    (ofModules modules').Offers offset l ↔ (ofModules modules).Offers offset l := by
  constructor
  · rintro ⟨⟨file', t⟩, hmem, hl⟩
    obtain ⟨m', hm', hfile', ht⟩ := mem_tables.1 hmem
    obtain ⟨m, hm, hmodule⟩ := h.exists_left hm'
    obtain ⟨file, hfile, hsame⟩ := hmodule.files.exists_left hfile'
    refine ⟨(file, t), mem_tables.2 ⟨m, hm, hfile, hsame.tables.mem_iff.2 ht⟩, ?_⟩
    rwa [locate?_congr hsame.name] at hl
  · rintro ⟨⟨file, t⟩, hmem, hl⟩
    obtain ⟨m, hm, hfile, ht⟩ := mem_tables.1 hmem
    obtain ⟨m', hm', hmodule⟩ := h.exists_right hm
    obtain ⟨file', hfile', hsame⟩ := hmodule.files.exists_right hfile
    refine ⟨(file', t), mem_tables.2 ⟨m', hm', hfile', hsame.tables.mem_iff.1 ht⟩, ?_⟩
    rwa [locate?_congr hsame.name]

theorem Exclusive.resolveAddress_of_reordered (h : (ofModules modules).Exclusive)
    (hreordered : Reordered SourceModule.Reorders modules modules') (offset : UInt32) :
    (ofModules modules').resolveAddress offset = (ofModules modules).resolveAddress offset := by
  -- the reordered tables need not be exclusive as pairs with their files, but they still agree
  apply Option.ext
  intro l
  rw [resolveAddress_eq_some_iff_offers, offers_iff_of_reordered hreordered,
    resolveAddress_eq_some_iff_offers fun _ _ => h.offers_unique]
  intro l l' hl hl'
  rw [offers_iff_of_reordered hreordered] at hl hl'
  exact h.offers_unique hl hl'

end Order

/-- **Tables that lie apart answer for themselves.** Every offset in the range of a table with
entries has a line of that table, in its file and its segment, and where an entry begins it is the
line of the last entry there. No order of the modules, of the files of a module or of the tables of
a file changes what is found for any offset. -/
theorem resolveAddress_exclusive (modules : List SourceModule)
    (hmodules : ∀ m ∈ modules, m.WellFormed) (hexclusive : (ofModules modules).Exclusive) :
    (∀ m ∈ modules, ∀ file ∈ m.files, ∀ t ∈ file.tables, t.lines.size ≠ 0 →
      ∀ offset, t.first ≤ offset → offset ≤ t.last →
        ∃ line, (ofModules modules).resolveAddress offset = some ⟨file.name, line, t.segment⟩ ∧
          line ∈ t.lines ∧ ∀ recorded, (offset, recorded) ∈ t.entries →
            t.RecordsLast offset line ∧ (t.offsets.toList.Nodup → line = recorded)) ∧
    ∀ modules', Reordered SourceModule.Reorders modules modules' → ∀ offset,
      (ofModules modules').resolveAddress offset = (ofModules modules).resolveAddress offset := by
  constructor
  · intro m hm file hfile t ht hnonempty offset hfirst hlast
    obtain ⟨l, hl, index, line, hselects, hline, rfl⟩ :=
      hexclusive.resolveAddress_of_covers hmodules (mem_tables.2 ⟨m, hm, hfile, ht⟩)
        ⟨hnonempty, hfirst, hlast⟩
    refine ⟨line, hl, Array.mem_of_getElem? hline, fun recorded hrecorded => ?_⟩
    have hlast := hselects.recordsLast (hmodules m hm file hfile t ht) hline hrecorded
    exact ⟨hlast, fun hnodup => LineTable.line_eq_of_nodup hnodup hlast.mem hrecorded⟩
  · intro modules' hreordered offset
    exact hexclusive.resolveAddress_of_reordered hreordered offset

/-- Three tables that lie apart, the first of which has two lines for offset 100, and an empty one
that all of them meet. -/
def apart : List SourceModule :=
  [⟨[], [⟨"a.c", [⟨1, 0, 4095, #[], #[]⟩, ⟨1, 100, 199, #[100, 100, 150], #[5, 6, 7]⟩]⟩,
      ⟨"b.c", [⟨1, 200, 299, #[210], #[9]⟩]⟩]⟩,
    ⟨[⟨2, 300, 399⟩], [⟨"a.c", [⟨2, 300, 399, #[300], #[1]⟩]⟩]⟩]

/-- The same with every list in another order. -/
def apartReordered : List SourceModule :=
  [⟨[⟨2, 300, 399⟩], [⟨"a.c", [⟨2, 300, 399, #[300], #[1]⟩]⟩]⟩,
    ⟨[], [⟨"b.c", [⟨1, 200, 299, #[210], #[9]⟩]⟩,
      ⟨"a.c", [⟨1, 100, 199, #[100, 100, 150], #[5, 6, 7]⟩, ⟨1, 0, 4095, #[], #[]⟩]⟩]⟩]

theorem reordered_apart : Reordered SourceModule.Reorders apart apartReordered := by
  have hfiles : ∀ file : SourceFile, file.Reorders file := fun _ => ⟨rfl, .rfl⟩
  refine ⟨apart.reverse, (List.reverse_perm apart).symm, .cons ⟨rfl, ?_⟩ (.cons ⟨rfl, ?_⟩ .nil)⟩
  · exact ⟨_, .rfl, .cons (hfiles _) .nil⟩
  · exact ⟨_, .swap _ _ _, .cons (hfiles _) (.cons ⟨rfl, .swap _ _ _⟩ .nil)⟩

theorem resolveAddress_exclusive_apart :
    (∀ m ∈ apart, m.WellFormed) ∧ (ofModules apart).Exclusive ∧
      (∃ line, (ofModules apart).resolveAddress 100 = some ⟨"a.c", line, 1⟩ ∧
        LineTable.RecordsLast ⟨1, 100, 199, #[100, 100, 150], #[5, 6, 7]⟩ 100 line) ∧
      ∀ offset, (ofModules apartReordered).resolveAddress offset =
        (ofModules apart).resolveAddress offset := by
  have wellFormed : ∀ m ∈ apart, m.WellFormed := by decide +kernel
  have exclusive : (ofModules apart).Exclusive := by decide +kernel
  obtain ⟨answers, stable⟩ := resolveAddress_exclusive apart wellFormed exclusive
  obtain ⟨line, hline, -, hlast⟩ := answers _ (.head _) _ (.head _) _ (.tail _ (.head _))
    (by decide) 100 (by decide) (by decide)
  exact ⟨wellFormed, exclusive, ⟨line, hline, (hlast 5 (by decide +kernel)).1⟩,
    stable _ reordered_apart⟩

end Resolver

end CodeView
