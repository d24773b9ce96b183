import CodeView.FileIndex.Write
import CodeView.Proofs.NameTable.Row
import CodeView.Proofs.Text.Lossy
import Mathlib.Algebra.BigOperators.Group.List.Lemmas
import Mathlib.Data.List.GetD
import Mathlib.Data.List.Nodup
import Mathlib.Data.List.Perm.Subperm

/-!
# File indexes read back

`FileIndex.read_bytesOfModules` says that the record written for the files of each module gives each
module its files back. A name is stored once, where the names before it end, so its offset leads to
it and to no other name; and the references of a module begin where those of the modules before it
end.
-/

namespace CodeView.FileIndex

open NameTable (Lists)
open NameFormat (prefixed)

/-- Modules whose files can be written: every name can be told from padding and has a length that
fits its byte, and the counts fit. -/
structure Storable (modules : List (List String)) : Prop where
  named : ∀ name ∈ modules.flatten, name ≠ ""
  short : ∀ name ∈ modules.flatten, name.utf8ByteSize ≤ 255
  moduleCount : modules.length ≤ 65535
  referenceCount : modules.flatten.length ≤ 65535

instance (modules : List (List String)) : Decidable (Storable modules) :=
  decidable_of_iff ((∀ name ∈ modules.flatten, name ≠ "") ∧
      (∀ name ∈ modules.flatten, name.utf8ByteSize ≤ 255) ∧
      modules.length ≤ 65535 ∧ modules.flatten.length ≤ 65535)
    ⟨fun ⟨named, short, moduleCount, referenceCount⟩ =>
        ⟨named, short, moduleCount, referenceCount⟩,
      fun h => ⟨h.named, h.short, h.moduleCount, h.referenceCount⟩⟩

/-! ## Distinct names -/

theorem mem_distinctNames {modules : List (List String)} {name : String} :
    name ∈ distinctNames modules ↔ name ∈ modules.flatten :=
  List.mem_eraseDups

theorem nodup_eraseDups (names : List String) : names.eraseDups.Nodup := by
  induction h : names.length using Nat.strongRecOn generalizing names with
  | ind n ih =>
    cases names with
    | nil => exact .nil
    | cons name rest =>
      have hshorter : (rest.filter fun other => !other == name).length < n := by
        have := List.length_filter_le (fun other => !other == name) rest
        rw [List.length_cons] at h
        omega
      rw [List.eraseDups_cons, List.nodup_cons, List.mem_eraseDups]
      exact ⟨by simp, ih _ hshorter _ rfl⟩

theorem nodup_distinctNames (modules : List (List String)) : (distinctNames modules).Nodup :=
  nodup_eraseDups _

theorem length_distinctNames_le (modules : List (List String)) :
    (distinctNames modules).length ≤ modules.flatten.length :=
  (List.subperm_of_subset (nodup_distinctNames _) fun _ => List.mem_eraseDups.1).length_le

/-! ## The names as they are stored -/

theorem length_nameBytes (name : String) : (nameBytes name).length = name.utf8ByteSize + 1 := by
  rw [nameBytes, length_prefixedBytes, Text.Lossy.length_encode]

theorem prefixed_nameBytes {name : String} (h : name.utf8ByteSize ≤ 255) :
    prefixed.Stores (nameBytes name) name := by
  refine ⟨Text.Lossy.encode name, ?_, rfl, (Text.Lossy.decode_encode name).symm⟩
  show (Text.Lossy.encode name).length < 256
  rw [Text.Lossy.length_encode]
  omega

theorem length_flatMap_nameBytes_le {names : List String}
    (h : ∀ name ∈ names, name.utf8ByteSize ≤ 255) :
    (names.flatMap nameBytes).length ≤ names.length * 256 := by
  induction names with
  | nil => simp
  | cons name rest ih =>
    have hfirst := h name List.mem_cons_self
    have hrest := ih fun other hother => h other (List.mem_cons_of_mem _ hother)
    rw [List.flatMap_cons, List.length_append, length_nameBytes, List.length_cons]
    omega

/-- A name begins where the names before it end. -/
theorem nameOffset_append_cons {before rest : List String} {name : String}
    (h : (before ++ name :: rest).Nodup) :
    nameOffset (before ++ name :: rest) name = (before.flatMap nameBytes).length := by
  have hbefore : ∀ other ∈ before, decide (other ≠ name) = true := by
    intro other hother
    exact decide_eq_true ((List.nodup_append.1 h).2.2 other hother name List.mem_cons_self)
  rw [nameOffset, List.takeWhile_append_of_pos hbefore]
  simp

/-- Names in a row are listed where they were written, and zeros behind them end the list. -/
theorem lists_of_holds {names : List String} (before rest : List String)
    (hnames : names = before ++ rest) (hnodup : names.Nodup) (hnamed : ∀ name ∈ names, name ≠ "")
    (hshort : ∀ name ∈ names, name.utf8ByteSize ≤ 255)
    (hsize : (names.flatMap nameBytes).length ≤ 0xffffffff) {source : ByteArray}
    {origin zeros : Nat}
    (h : Holds source (origin + (before.flatMap nameBytes).length)
      (rest.flatMap nameBytes ++ List.replicate zeros 0)) :
    ∃ stop, Lists source (origin + (names.flatMap nameBytes).length + zeros) prefixed.Stores
      origin (origin + (before.flatMap nameBytes).length)
      (rest.map fun name => (UInt32.ofNat (nameOffset names name), name)) stop := by
  -- on the names still to come; those before them tell how far the offsets have counted
  induction rest generalizing before with
  | nil =>
    rw [List.append_nil] at hnames
    subst hnames
    cases zeros with
    | zero => exact ⟨_, .full⟩
    | succ zeros =>
      have hzero : Holds source (origin + (names.flatMap nameBytes).length) (prefixedBytes []) :=
        Holds.left (b := List.replicate zeros 0) h
      exact ⟨_, .padded ⟨[], prefixed.allows_nil, rfl, rfl⟩ (by simp [prefixed.encode_nil]) hzero⟩
  | cons name rest ih =>
    have hmem : name ∈ names := hnames ▸ List.mem_append_right _ List.mem_cons_self
    have hoffset : nameOffset names name = (before.flatMap nameBytes).length := by
      rw [hnames] at hnodup ⊢
      exact nameOffset_append_cons hnodup
    have hlength : (names.flatMap nameBytes).length = (before.flatMap nameBytes).length +
        (nameBytes name).length + (rest.flatMap nameBytes).length := by
      simp only [hnames, List.flatMap_append, List.flatMap_cons, List.length_append, Nat.add_assoc]
    have hbehind : origin + ((before ++ [name]).flatMap nameBytes).length =
        origin + (before.flatMap nameBytes).length + (nameBytes name).length := by
      simp [Nat.add_assoc]
    rw [List.flatMap_cons, List.append_assoc] at h
    have hrest := h.right
    rw [← hbehind] at hrest
    obtain ⟨stop, hlists⟩ := ih (before ++ [name]) (by simp [hnames]) hrest
    rw [hbehind] at hlists
    have hentry := Lists.name (prefixed_nameBytes (hshort name hmem)) (hnamed name hmem)
      (by omega) h.left hlists
    have hplace : NameTable.offsetOf
        (origin + (before.flatMap nameBytes).length - origin) =
          UInt32.ofNat (nameOffset names name) := by
      rw [Nat.add_sub_cancel_left, NameTable.offsetOf, Nat.min_eq_left (by omega), hoffset]
    rw [hplace] at hentry
    exact ⟨stop, hentry⟩

section Stored

variable {modules : List (List String)}

namespace Storable

theorem distinct_named (h : Storable modules) : ∀ name ∈ distinctNames modules, name ≠ "" :=
  fun name hname => h.named name (mem_distinctNames.1 hname)

theorem distinct_short (h : Storable modules) :
    ∀ name ∈ distinctNames modules, name.utf8ByteSize ≤ 255 :=
  fun name hname => h.short name (mem_distinctNames.1 hname)

/-- The names take fewer bytes than an offset can tell apart. -/
theorem length_names_le (h : Storable modules) :
    ((distinctNames modules).flatMap nameBytes).length ≤ 65535 * 256 :=
  Nat.le_trans (length_flatMap_nameBytes_le h.distinct_short)
    (Nat.mul_le_mul_right _ (Nat.le_trans (length_distinctNames_le modules) h.referenceCount))

/-- The entries of the index are listed wherever the names were written. -/
theorem lists (h : Storable modules) {source : ByteArray} {origin zeros : Nat}
    (hholds : Holds source origin
      ((distinctNames modules).flatMap nameBytes ++ List.replicate zeros 0)) :
    ∃ stop, Lists source (origin + ((distinctNames modules).flatMap nameBytes).length + zeros)
      prefixed.Stores origin origin (ofModules modules).files.entries stop := by
  have hsize := h.length_names_le
  exact lists_of_holds [] (distinctNames modules) (List.nil_append _).symm
    (nodup_distinctNames _) h.distinct_named h.distinct_short (by omega) hholds

/-- Each offset is that of one name. -/
theorem addressed (h : Storable modules) : (ofModules modules).files.Addressed := by
  have hsize := h.length_names_le
  let stored := (distinctNames modules).flatMap nameBytes ++ List.replicate 0 0
  have hholds : Holds stored.toByteArray 0 stored := .toByteArray stored
  obtain ⟨stop, hlists⟩ := h.lists hholds
  exact hlists.addressed prefixed.length_pos_of_stores (Nat.le_refl _) (by omega)

end Storable

/-! ## The record -/

@[simp] theorem size_moduleStarts : (ofModules modules).moduleStarts.size = modules.length := by
  simp [ofModules]

@[simp] theorem size_referenceCounts :
    (ofModules modules).referenceCounts.size = modules.length := by
  simp [ofModules]

@[simp] theorem size_nameOffsets :
    (ofModules modules).nameOffsets.size = modules.flatten.length := by
  rw [ofModules, List.size_toArray, List.length_map]

/-- The record holds the arrays of the index one behind the other. -/
theorem bytesOfModules_eq (modules : List (List String)) :
    bytesOfModules modules =
      wordBytes (UInt16.ofNat modules.length) ++ wordBytes (UInt16.ofNat modules.flatten.length) ++
        (ofModules modules).moduleStarts.toList.flatMap wordBytes ++
        (ofModules modules).referenceCounts.toList.flatMap wordBytes ++
        (ofModules modules).nameOffsets.toList.flatMap wordBytes ++
        (distinctNames modules).flatMap nameBytes := by
  simp only [bytesOfModules, ofModules, List.flatMap_map]

variable {c : Cursor} {zeros : Nat}

/-- A record is read wherever it was written, with zeros up to the end of the window. -/
theorem read_of_holds (hmodules : Storable modules) (hc : c.Inside)
    (h : Holds c.source c.pos (bytesOfModules modules ++ List.replicate zeros 0))
    (hlimit : c.pos + (bytesOfModules modules ++ List.replicate zeros 0).length = c.limit) :
    ∃ c', read c = .ok (ofModules modules) c' := by
  rw [bytesOfModules_eq, List.append_assoc] at h hlimit
  have hmoduleCount : (wordAt UInt16 c.source c.pos).toNat = modules.length := by
    rw [h.left.left.left.left.left.wordAt_eq, toNat_count hmodules.moduleCount]
  have hreferenceCount :
      (wordAt UInt16 c.source (c.pos + 2)).toNat = modules.flatten.length := by
    have hcount := h.left.left.left.left.right
    rw [length_wordBytes, width_uint16] at hcount
    rw [hcount.wordAt_eq, toNat_count hmodules.referenceCount]
  have hstarts := h.left.left.left.right
  have hcounts := h.left.left.right
  have hoffsets := h.left.right
  have hnames := h.right
  simp only [List.length_append, length_wordBytes, length_flatMap_wordBytes, width_uint16,
    width_uint32, Array.length_toList, size_moduleStarts, size_referenceCounts, size_nameOffsets,
    List.length_replicate, ← hmoduleCount, ← hreferenceCount, ← Nat.add_assoc]
    at hstarts hcounts hoffsets hnames hlimit
  generalize horigin : c.pos + 2 + 2 + (wordAt UInt16 c.source c.pos).toNat * 2 +
    (wordAt UInt16 c.source c.pos).toNat * 2 +
    (wordAt UInt16 c.source (c.pos + 2)).toNat * 4 = origin at hnames hlimit
  obtain ⟨stop, hlists⟩ := hmodules.lists hnames
  rw [hlimit] at hlists
  have hinside : (c.moveTo origin).Inside := hc.moveTo (by omega) (by omega)
  have hfiles : NameTable.readFrom origin Read.prefixedName (c.moveTo origin) =
      .ok (ofModules modules).files (c.moveTo stop) :=
    (NameTable.readFrom_eq_ok prefixed.length_pos_of_stores Read.takes_prefixedName
      hinside).2 ⟨stop, hlists, rfl⟩
  refine ⟨c.moveTo stop, ?_⟩
  simp only [read, Read.word_bind_eq_ok, Read.words_bind_eq_ok, Read.position_bind_eq_ok,
    Cursor.pos_moveTo, Cursor.source_moveTo, Cursor.limit_moveTo, Cursor.moveTo_moveTo,
    width_uint16, width_uint32, horigin]
  refine ⟨by omega, by omega, by omega, by omega, by omega, ?_⟩
  refine Read.bind_eq_ok.2 ⟨_, _, hfiles, Read.pure_eq_ok.2 ⟨?_, rfl⟩⟩
  rw [FileIndex.mk.injEq]
  exact ⟨(hstarts.words (hmoduleCount.trans size_moduleStarts.symm)).symm,
    (hcounts.words (hmoduleCount.trans size_referenceCounts.symm)).symm,
    (hoffsets.words (hreferenceCount.trans size_nameOffsets.symm)).symm, rfl⟩

/-! ## Looking things up -/

theorem names_ofModules (modules : List (List String)) :
    (ofModules modules).files.names = distinctNames modules := by
  rw [ofModules, NameTable.names, List.map_map]
  exact List.map_id _

/-- The stored offset of a name leads back to it. -/
theorem nameAt?_nameOffset (hmodules : Storable modules) {name : String}
    (h : name ∈ modules.flatten) :
    (ofModules modules).files.nameAt?
        (UInt32.ofNat (nameOffset (distinctNames modules) name)) = some name :=
  hmodules.addressed.nameAt?_eq_some_iff.2
    (List.mem_map.2 ⟨name, mem_distinctNames.2 h, rfl⟩)

/-- The references of a module begin where those of the modules before it end. -/
theorem references_eq (hmodules : Storable modules) (i : Nat) (hi : i < modules.length) :
    ∃ start count, (ofModules modules).moduleStarts[i]? = some start ∧
      (ofModules modules).referenceCounts[i]? = some count ∧
      (modules.flatten.drop start.toNat).take count.toNat = modules[i] := by
  have hcounts : i < (modules.map List.length).length := by rwa [List.length_map]
  have hstarts : i < (starts 0 (modules.map List.length)).length := by rwa [length_starts]
  have hend := sum_take_add_le (modules.map List.length) i hcounts
  have htotal := hmodules.referenceCount
  rw [List.length_flatten] at htotal
  refine ⟨UInt16.ofNat ((modules.map List.length).take i).sum,
    UInt16.ofNat (modules.map List.length)[i], ?_, ?_, ?_⟩
  · rw [ofModules, List.getElem?_toArray, List.getElem?_map, List.getElem?_eq_getElem hstarts,
      getElem_starts, Nat.zero_add]
    rfl
  · rw [ofModules, List.getElem?_toArray, List.getElem?_map, List.getElem?_eq_getElem hcounts]
    rfl
  · have hsum := List.sum_take_succ (modules.map List.length) i hcounts
    rw [toNat_count (by omega), toNat_count (by omega),
      ← List.drop_take_succ_flatten_eq_getElem modules i hi, List.drop_take, hsum,
      Nat.add_sub_cancel_left]

/-- Each module has the files that were written for it. -/
theorem moduleFiles_ofModules (hmodules : Storable modules) (module : UInt16) :
    (ofModules modules).moduleFiles module =
      if module = 0 then [] else modules.getD (module.toNat - 1) [] := by
  rw [moduleFiles]
  split
  · rfl
  by_cases hi : module.toNat - 1 < modules.length
  · obtain ⟨start, count, hstart, hcount, hreferences⟩ := references_eq hmodules _ hi
    rw [hstart, hcount, List.getD_eq_getElem _ _ hi]
    simp only [ofModules, ← List.map_drop, ← List.map_take, hreferences, List.filterMap_map]
    have hnames : ∀ name ∈ modules[module.toNat - 1],
        ((ofModules modules).files.nameAt? ∘
          fun name => UInt32.ofNat (nameOffset (distinctNames modules) name)) name =
            some name := fun name hname =>
      nameAt?_nameOffset hmodules (List.mem_flatten.2 ⟨_, List.getElem_mem hi, hname⟩)
    exact (List.filterMap_congr hnames).trans List.filterMap_some
  · rw [Array.getElem?_eq_none (by rw [size_moduleStarts]; omega),
      List.getD_eq_default _ _ (by omega)]

/-- Only the names in front of a name decide where it begins. -/
theorem nameOffset_getElem {names : List String} (hnodup : names.Nodup) (i : Nat)
    (hi : i < names.length) :
    nameOffset names names[i] = ((names.take i).flatMap nameBytes).length := by
  have hsplit : names.take i ++ names[i] :: names.drop (i + 1) = names := by
    rw [← List.drop_eq_getElem_cons hi, List.take_append_drop]
  have hoffset := nameOffset_append_cons (hsplit.symm ▸ hnodup)
  rwa [hsplit] at hoffset

/-- The offsets at which names are found are those at which they begin. -/
theorem nameAt?_ofModules (hmodules : Storable modules) (offset : UInt32) (name : String) :
    (ofModules modules).files.nameAt? offset = some name ↔
      ∃ i, (distinctNames modules)[i]? = some name ∧
        offset.toNat = (((distinctNames modules).take i).flatMap nameBytes).length := by
  have hoffset : ∀ (i : Nat) (hi : i < (distinctNames modules).length),
      (UInt32.ofNat (nameOffset (distinctNames modules) (distinctNames modules)[i])).toNat =
        (((distinctNames modules).take i).flatMap nameBytes).length := by
    intro i hi
    have hle : (((distinctNames modules).take i).flatMap nameBytes).length ≤
        ((distinctNames modules).flatMap nameBytes).length :=
      ((List.take_sublist i _).flatMap _).length_le
    have hsize := hmodules.length_names_le
    rw [nameOffset_getElem (nodup_distinctNames _) i hi, UInt32.toNat_ofNat_of_lt']
    show _ < 4294967296
    omega
  rw [hmodules.addressed.nameAt?_eq_some_iff]
  constructor
  · intro h
    obtain ⟨_, hmem, heq⟩ := List.mem_map.1 h
    cases heq
    obtain ⟨i, hi, rfl⟩ := List.getElem_of_mem hmem
    exact ⟨i, List.getElem?_eq_getElem hi, hoffset i hi⟩
  · rintro ⟨i, hname, hplace⟩
    obtain ⟨hi, rfl⟩ := List.getElem?_eq_some_iff.1 hname
    rw [← hoffset i hi, UInt32.toNat_inj] at hplace
    rw [hplace]
    exact List.mem_map_of_mem (List.getElem_mem hi)

end Stored

/-- The record for the files of each module, with zeros behind it, is read. Each module has the
files it was written with, there is no other module, and a name is found at the offset at which it
begins and nowhere else. -/
theorem read_bytesOfModules (modules : List (List String)) (hmodules : Storable modules)
    (zeros : Nat) :
    ∃ index c', read (Cursor.ofBytes
          (bytesOfModules modules ++ List.replicate zeros 0).toByteArray) = .ok index c' ∧
      (∀ module : UInt16, index.moduleFiles module =
        if module = 0 then [] else modules.getD (module.toNat - 1) []) ∧
      index.files.names = distinctNames modules ∧
      ∀ (offset : UInt32) (name : String), index.files.nameAt? offset = some name ↔
        ∃ i, (distinctNames modules)[i]? = some name ∧
          offset.toNat = (((distinctNames modules).take i).flatMap nameBytes).length := by
  obtain ⟨c', hread⟩ := read_of_holds hmodules (Cursor.inside_ofBytes _)
    (Holds.toByteArray (bytesOfModules modules ++ List.replicate zeros 0))
    ((Nat.zero_add _).trans List.size_toByteArray.symm)
  exact ⟨ofModules modules, c', hread, moduleFiles_ofModules hmodules, names_ofModules modules,
    nameAt?_ofModules hmodules⟩

/-- Modules that share names, one that uses a name twice, and one without files. -/
def sharedNames : List (List String) :=
  [["größe.c", "stdio.h", "größe.c"], [], ["b.c", "stdio.h"]]

theorem read_bytesOfModules_sharedNames :
    Storable sharedNames ∧
      ∃ index c', read (Cursor.ofBytes
            (bytesOfModules sharedNames ++ List.replicate 3 0).toByteArray) = .ok index c' ∧
        (∀ module : UInt16, index.moduleFiles module =
          if module = 0 then [] else sharedNames.getD (module.toNat - 1) []) ∧
        index.files.names = ["größe.c", "stdio.h", "b.c"] ∧
        index.files.nameAt? 10 = some "stdio.h" := by
  have storable : Storable sharedNames := by decide +kernel
  obtain ⟨index, c', hread, hfiles, hnames, hplaces⟩ :=
    read_bytesOfModules sharedNames storable 3
  exact ⟨storable, index, c', hread, hfiles, hnames,
    (hplaces 10 "stdio.h").2 ⟨1, by decide +kernel, by decide +kernel⟩⟩

end CodeView.FileIndex
