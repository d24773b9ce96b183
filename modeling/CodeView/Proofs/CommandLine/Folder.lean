import CodeView.CommandLine.Folder
import CodeView.Proofs.CommandLine.Arguments

/-!
# Folders that are written to

Bytes that are written at the end of a file change its content, and nothing about where paths lead
(`place_append`), so a path that leads elsewhere is read as before (`read_append`). A file that is
opened to be written has the content that it had, and can be found by its directory and its name
(`holds_openFile`).
-/

namespace CodeView.CommandLine

/-- A place once bytes are written at the end of the file at a spot. -/
def Place.grow (spot : Spot) (bytes : ByteArray) : Place → Place
  | .directory s => .directory s
  | .file s content => .file s (Folder.grown spot bytes s content)

namespace Folder

variable {f f' : Folder} {spot : Spot} {bytes content : ByteArray} {path directory : Path}
  {name : String}

/-! ## Writing at the end of a file -/

/-- What was in a file stays at its beginning. -/
theorem exists_grown_eq (spot : Spot) (bytes content : ByteArray) :
    ∃ added, grown spot bytes spot content = content ++ added ∧
      (spot ≠ Spot.nullDevice → added = bytes) := by
  by_cases hspot : spot = Spot.nullDevice
  · exact ⟨.empty, by simp [grown, hspot], fun hne => absurd hspot hne⟩
  · exact ⟨bytes, if_pos ⟨rfl, hspot⟩, fun _ => rfl⟩

theorem lookup_append (f : Folder) (spot : Spot) (bytes : ByteArray) (s : Spot) :
    (f.append spot bytes).files.lookup s = (f.files.lookup s).map (grown spot bytes s) := by
  rw [append]
  induction f.files with
  | nil => rfl
  | cons entry files ih =>
    rcases entry with ⟨file, content⟩
    rw [List.map_cons, List.lookup_cons, List.lookup_cons, ih]
    obtain rfl | hne := eq_or_ne s file
    · rw [beq_self_eq_true]
      rfl
    · rw [beq_false_of_ne hne]

/-- Writing to one file leaves the others as they are. -/
theorem lookup_append_of_ne {s : Spot} (h : s ≠ spot) :
    (f.append spot bytes).files.lookup s = f.files.lookup s := by
  have hother (content : ByteArray) : grown spot bytes s content = content :=
    if_neg fun hspot => h hspot.1
  rw [lookup_append, funext hother]
  exact Option.map_id'

theorem find?_append (f : Folder) (spot : Spot) (bytes : ByteArray) (s : Spot) :
    (f.append spot bytes).find? s = (f.find? s).map (Place.grow spot bytes) := by
  have hany : ((f.append spot bytes).files.any fun entry => s.isPrefixOf entry.1) =
      f.files.any fun entry => s.isPrefixOf entry.1 := by
    rw [append, List.any_map]
    rfl
  have hdirectories : (f.append spot bytes).directories = f.directories := rfl
  rw [find?, find?, lookup_append, hany, hdirectories]
  cases f.files.lookup s with
  | some content => rfl
  | none =>
    simp only [Option.map_none]
    split_ifs <;> rfl

theorem enter_append (f : Folder) (spot : Spot) (bytes : ByteArray) (place : Place)
    (piece : String) :
    (f.append spot bytes).enter (place.grow spot bytes) piece =
      (f.enter place piece).map (Place.grow spot bytes) := by
  cases place with
  | file => rfl
  | directory s =>
    simp only [Place.grow, enter, find?_append]
    split_ifs
    · rfl
    · rfl
    · rfl
    · cases f.find? (s ++ [piece]) <;> rfl

/-- Paths lead where they led before. -/
theorem place_append (f : Folder) (spot : Spot) (bytes : ByteArray) (path : Path) :
    (f.append spot bytes).place path = (f.place path).map (Place.grow spot bytes) := by
  have walk (pieces : List String) (start : Place) :
      pieces.foldlM (f.append spot bytes).enter (start.grow spot bytes) =
        (pieces.foldlM f.enter start).map (Place.grow spot bytes) := by
    induction pieces generalizing start with
    | nil => rfl
    | cons piece pieces ih =>
      rw [List.foldlM_cons, List.foldlM_cons, enter_append]
      cases f.enter start piece with
      | error e => rfl
      | ok place => exact ih place
  unfold place
  split_ifs
  · rfl
  · rfl
  · exact walk _ (.directory Spot.root)
  · exact walk _ (.directory [])

/-- The file of a name in a directory: it is at a spot and has a content. -/
def Holds (f : Folder) (directory : Path) (name : String) (spot : Spot) (content : ByteArray) :
    Prop :=
  ∃ d, f.place directory = .ok (.directory d) ∧
    f.enter (.directory d) name = .ok (.file spot content)

theorem Holds.append (h : f.Holds directory name spot content) (bytes : ByteArray) :
    (f.append spot bytes).Holds directory name spot (grown spot bytes spot content) := by
  obtain ⟨d, hplace, henter⟩ := h
  refine ⟨d, ?_, ?_⟩
  · rw [place_append, hplace]
    rfl
  · have hgrown := enter_append f spot bytes (.directory d) name
    rw [henter] at hgrown
    exact hgrown

/-! ## Opening a file -/

/-- A file that is entered is at its spot. -/
theorem lookup_of_enter {d : Spot} (h : f.enter (.directory d) name = .ok (.file spot content)) :
    f.files.lookup spot = some content := by
  simp only [enter] at h
  split_ifs at h
  · cases h
  · cases h
  · cases hfind : f.find? (d ++ [name]) with
    | none =>
      rw [hfind] at h
      cases h
    | some place =>
      rw [hfind] at h
      cases h
      unfold find? at hfind
      split at hfind
      case h_1 hlookup =>
        cases hfind
        exact hlookup
      case h_2 =>
        split_ifs at hfind
        cases hfind

theorem lookup_of_find?_eq_none {s : Spot} (h : f.find? s = none) : f.files.lookup s = none := by
  unfold find? at h
  split at h
  case h_1 => cases h
  case h_2 hlookup => exact hlookup

/-- What is there stays there when a file is made where nothing was. -/
theorem find?_create (hnone : f.find? spot = none) {s : Spot} {place : Place}
    (h : f.find? s = some place) : (f.create spot).find? s = some place := by
  have hne : s ≠ spot := by
    rintro rfl
    rw [hnone] at h
    cases h
  have hlookup : (f.create spot).files.lookup s = f.files.lookup s := by
    rw [create, List.lookup_cons, beq_false_of_ne hne]
  rw [find?] at h ⊢
  rw [hlookup]
  cases hfile : f.files.lookup s with
  | some content =>
    rw [hfile] at h
    exact h
  | none =>
    simp only [hfile] at h
    split_ifs at h with hthere
    rw [if_pos, h]
    simp only [create, List.any_cons, Bool.or_eq_true] at hthere ⊢
    tauto

theorem enter_create (hnone : f.find? spot = none) {start place : Place} {piece : String}
    (h : f.enter start piece = .ok place) : (f.create spot).enter start piece = .ok place := by
  cases start with
  | file => cases h
  | directory s =>
    simp only [enter] at h ⊢
    split_ifs at h ⊢
    · exact h
    · exact h
    · cases hfind : f.find? (s ++ [piece]) with
      | none =>
        rw [hfind] at h
        cases h
      | some found =>
        rw [hfind] at h
        rw [find?_create hnone hfind]
        exact h

theorem place_create (hnone : f.find? spot = none) {place : Place}
    (h : f.place path = .ok place) : (f.create spot).place path = .ok place := by
  have walk {pieces : List String} {start : Place} (h : pieces.foldlM f.enter start = .ok place) :
      pieces.foldlM (f.create spot).enter start = .ok place := by
    induction pieces generalizing start with
    | nil => exact h
    | cons piece pieces ih =>
      obtain ⟨next, hnext, hrest⟩ := exists_of_bind_eq_ok h
      rw [List.foldlM_cons, enter_create hnone hnext]
      exact ih hrest
  unfold Folder.place at h ⊢
  split_ifs at h ⊢ <;> exact walk h

/-- Where a name is not found, nothing is at its spot, and what is put there is found by it. -/
theorem enter_of_notFound {d : Spot} (h : f.enter (.directory d) name = .error .notFound) :
    f.find? (d ++ [name]) = none ∧
      (f.create (d ++ [name])).enter (.directory d) name = .ok (.file (d ++ [name]) .empty) := by
  have hfound : (f.create (d ++ [name])).find? (d ++ [name]) =
      some (.file (d ++ [name]) .empty) := by
    simp [find?, create]
  simp only [enter] at h ⊢
  split_ifs at h ⊢
  · cases h
  · cases hfind : f.find? (d ++ [name]) with
    | none => exact ⟨rfl, by rw [hfound]⟩
    | some place =>
      rw [hfind] at h
      cases h

/-- A file that is opened has the content that it had, and is found by its directory and name. No
other file is changed. -/
theorem holds_openFile (h : f.openFile directory name = .ok (f', spot)) :
    f'.Holds directory name spot ((f.files.lookup spot).getD .empty) ∧
      ∀ s, s ≠ spot → f'.files.lookup s = f.files.lookup s := by
  obtain ⟨place, hplace, h⟩ := exists_of_bind_eq_ok h
  cases place with
  | file => cases h
  | directory d =>
    simp only at h
    split at h
    case h_1 content henter =>
      cases h
      rw [lookup_of_enter henter]
      exact ⟨⟨d, hplace, henter⟩, fun _ _ => rfl⟩
    case h_2 => cases h
    case h_3 henter =>
      cases h
      obtain ⟨hnone, hfound⟩ := enter_of_notFound henter
      rw [lookup_of_find?_eq_none hnone]
      refine ⟨⟨d, place_create hnone hplace, hfound⟩, fun s hs => ?_⟩
      rw [create, List.lookup_cons, beq_false_of_ne hs]
    case h_4 => cases h

theorem files_makeDirectory (h : f.makeDirectory path = .ok f') : f'.files = f.files := by
  unfold makeDirectory at h
  split at h
  case h_1 =>
    cases h
    rfl
  case h_2 =>
    split at h <;> cases h
    rfl
  case h_3 => cases h

/-- No file changes when directories are made. -/
theorem files_makeDirectories (h : f.makeDirectories path = .ok f') : f'.files = f.files := by
  fun_induction makeDirectories f path generalizing f' with
  | case1 =>
    cases h
    rfl
  | case2 => cases h
  | case3 path _ _ parent _ _ ih =>
    obtain ⟨around, hparent, hmade⟩ := exists_of_bind_eq_ok h
    exact (files_makeDirectory hmade).trans (ih hparent)
  | case4 => exact files_makeDirectory h

end Folder

end CodeView.CommandLine
