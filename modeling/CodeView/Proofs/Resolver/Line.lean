import CodeView.Proofs.Search
import CodeView.Resolver.Scan

/-!
# Lines looked up through the index

The index is made at the first question that needs it. At any time the resolver serves the modules
it was made for: `Serves` holds at the start and after every question, and as long as it holds, a
line is found where the plain scan finds it.
-/

namespace CodeView

/-- The first entry of a table for a line, found by its line and by walking over the entries. -/
theorem LineTable.offsetOf?_eq_find? (t : LineTable) (line : UInt16) :
    t.offsetOf? line = (t.entries.find? (·.2 == line)).map (·.1) := by
  obtain ⟨segment, first, last, ⟨offsets⟩, ⟨lines⟩⟩ := t
  simp only [offsetOf?, entries, List.idxOf?_toArray, List.getElem?_toArray]
  -- the walk is over the lines; offsets without a line are reached by neither side
  induction lines generalizing offsets with
  | nil => simp
  | cons recorded rest ih =>
    cases offsets with
    | nil => simp
    | cons offset others =>
      rw [List.idxOf?_cons, List.zip_cons_cons, List.find?_cons]
      by_cases heq : (recorded == line) = true
      · simp [heq]
      · rw [Bool.not_eq_true] at heq
        simp only [heq, ← ih others, Bool.false_eq_true, if_false]
        cases List.idxOf? line rest <;> rfl

theorem LineTable.offsetOf?_eq_none_iff {t : LineTable} {line : UInt16} :
    t.offsetOf? line = none ↔ ∀ entry ∈ t.entries, entry.2 ≠ line := by
  rw [offsetOf?_eq_find?, Option.map_eq_none_iff, List.find?_eq_none]
  simp only [beq_iff_eq]

namespace Resolver

/-- The resolver answers for the given modules: they are its own, and its index, once made, is that
of their files. -/
structure Serves (r : Resolver) (modules : List SourceModule) : Prop where
  modules_eq : r.modules = modules
  index_eq : ∀ index, r.index? = some index → index = .ofFiles (modules.flatMap (·.files))

section Serving

variable {r : Resolver} {modules : List SourceModule}

theorem serves_ofModules (modules : List SourceModule) : (ofModules modules).Serves modules :=
  ⟨rfl, fun _ h => nomatch h⟩

theorem Serves.index (h : r.Serves modules) :
    r.index = .ofFiles (modules.flatMap (·.files)) := by
  rw [Resolver.index, files, h.modules_eq]
  cases hindex : r.index? with
  | none => rfl
  | some index => exact h.index_eq index hindex

theorem Serves.indexed (h : r.Serves modules) : r.indexed.Serves modules := by
  constructor
  · exact h.modules_eq
  · intro index hindex
    rw [← Option.some.inj hindex]
    exact h.index

/-- One question leaves the resolver with the same modules and a valid index. -/
theorem Serves.ask (h : r.Serves modules) (query : Query) : (r.ask query).2.Serves modules := by
  cases query with
  | address offset => exact h
  | line file line => exact h.indexed

theorem Serves.askAll (h : r.Serves modules) (queries : List Query) :
    (r.askAll queries).2.Serves modules := by
  induction queries generalizing r with
  | nil => exact h
  | cons query rest ih => exact ih (h.ask query)

/-- A line is looked up among the files of the name, in order. -/
theorem Serves.resolveLine (h : r.Serves modules) (file : String) (line : UInt16) :
    (r.resolveLine file line).1 =
      (modules.flatMap (·.files)).findSome? fun f =>
        if f.name == file then f.tables.findSome? (·.offsetOf? line) else none := by
  rw [← findSome?_filter, ← NameIndex.find_ofFiles, ← h.indexed.index]
  rfl

end Serving

theorem lines_eq (r : Resolver) :
    r.lines = r.tables.flatMap fun x => x.2.entries.map fun e => ⟨x.1.name, e.1, e.2⟩ :=
  rfl

/-- The scan passes over every file of another name, and over every table without the line. -/
theorem scanLine_eq (modules : List SourceModule) (file : String) (line : UInt16) :
    (ofModules modules).scanLine file line =
      (modules.flatMap (·.files)).findSome? fun f =>
        if f.name == file then f.tables.findSome? (·.offsetOf? line) else none := by
  -- within a table the name is compared anew for each entry, though it is the same for all
  have htable (f : SourceFile) (t : LineTable) :
      ((t.entries.map fun e => (⟨f.name, e.1, e.2⟩ : Line)).find?
          fun recorded => recorded.file == file && recorded.line == line).map (·.offset) =
        if f.name == file then t.offsetOf? line else none := by
    rw [List.find?_map, Option.map_map, LineTable.offsetOf?_eq_find?]
    by_cases hname : (f.name == file) = true
    · simp only [hname, Bool.true_and, if_true, Function.comp_def]
    · rw [Bool.not_eq_true] at hname
      simp [hname, Function.comp_def]
  have hfile (f : SourceFile) : (f.tables.findSome? fun t =>
        if f.name == file then t.offsetOf? line else none) =
      if f.name == file then f.tables.findSome? (·.offsetOf? line) else none := by
    split
    · rfl
    · rw [List.findSome?_eq_none_iff]
      exact fun _ _ => rfl
  simp only [scanLine, lines_eq, tables, files, ofModules, List.find?_flatMap, List.map_findSome?,
    findSome?_flatMap, List.findSome?_map, Function.comp_def, htable, hfile]

theorem scanLine_eq_none_iff (modules : List SourceModule) (file : String) (line : UInt16) :
    (ofModules modules).scanLine file line = none ↔
      ∀ m ∈ modules, ∀ f ∈ m.files, f.name = file →
        ∀ t ∈ f.tables, ∀ entry ∈ t.entries, entry.2 ≠ line := by
  rw [scanLine_eq, List.findSome?_eq_none_iff]
  constructor
  · intro h m hm f hf hname t ht
    have hfile := h f (List.mem_flatMap.2 ⟨m, hm, hf⟩)
    rw [if_pos (beq_iff_eq.2 hname), List.findSome?_eq_none_iff] at hfile
    exact LineTable.offsetOf?_eq_none_iff.1 (hfile t ht)
  · intro h f hf
    obtain ⟨m, hm, hf⟩ := List.mem_flatMap.1 hf
    split
    case isTrue hname =>
      rw [List.findSome?_eq_none_iff]
      intro t ht
      exact LineTable.offsetOf?_eq_none_iff.2 (h m hm f hf (eq_of_beq hname) t ht)
    case isFalse => rfl

theorem Serves.resolveLine_eq_scanLine {r : Resolver} {modules : List SourceModule}
    (h : r.Serves modules) (file : String) (line : UInt16) :
    (r.resolveLine file line).1 = (ofModules modules).scanLine file line := by
  rw [h.resolveLine, scanLine_eq]

/-- **The index changes no answer.** Whatever was asked before, a line of a file begins where the
plain scan finds it, and it is not found exactly if no file of that very name records it. -/
theorem resolveLine_after (modules : List SourceModule) (queries : List Query) (file : String)
    (line : UInt16) :
    let r := ((ofModules modules).askAll queries).2
    (r.resolveLine file line).1 = (ofModules modules).scanLine file line ∧
      ((r.resolveLine file line).1 = none ↔
        ∀ m ∈ modules, ∀ f ∈ m.files, f.name = file →
          ∀ t ∈ f.tables, ∀ entry ∈ t.entries, entry.2 ≠ line) := by
  intro r
  have hserves : r.Serves modules := (serves_ofModules modules).askAll queries
  have hscan : (r.resolveLine file line).1 = (ofModules modules).scanLine file line :=
    hserves.resolveLine_eq_scanLine file line
  refine ⟨hscan, ?_⟩
  rw [hscan, scanLine_eq_none_iff]

end Resolver

end CodeView
