import CodeView.NameTable
import CodeView.Proofs.Reading.Taken

/-!
# Names in a row

Names are read one after the other until the window ends or an empty name begins the padding.
`NameTable.Lists` says which entries are stored in this way from a position on, and the reading
gives these entries and no others. Their offsets increase, so each offset leads to one name.
-/

namespace CodeView.NameTable

open Read

/-- The entries that are stored from a position on, where names are stored as `stores` says and
offsets count from `origin`. The names end at the limit or with an empty one. -/
inductive Lists (source : ByteArray) (limit : Nat) (stores : List UInt8 → String → Prop)
    (origin : Nat) : (position : Nat) → List (UInt32 × String) → (stop : Nat) → Prop
  | full : Lists source limit stores origin limit [] limit
  | padded {position : Nat} {taken : List UInt8} (empty : stores taken "")
      (fits : position + taken.length ≤ limit) (holds : Holds source position taken) :
      Lists source limit stores origin position [] (position + taken.length)
  | name {position stop : Nat} {taken : List UInt8} {text : String}
      {rest : List (UInt32 × String)} (stored : stores taken text) (nonempty : text ≠ "")
      (fits : position + taken.length ≤ limit) (holds : Holds source position taken)
      (others : Lists source limit stores origin (position + taken.length) rest stop) :
      Lists source limit stores origin position
        ((offsetOf (position - origin), text) :: rest) stop

variable {stores : List UInt8 → String → Prop} {name : Read String} {origin : Nat}
  {c c' : Cursor} {t : NameTable}

/-! ## Reading -/

section Reading

variable (hsize : ∀ taken text, stores taken text → 0 < taken.length)

include hsize

/-- At the limit there is no name left. -/
theorem lists_limit {source : ByteArray} {limit stop : Nat} {entries : List (UInt32 × String)} :
    Lists source limit stores origin limit entries stop ↔ entries = [] ∧ stop = limit := by
  constructor
  · intro h
    cases h with
    | full => exact ⟨rfl, rfl⟩
    | padded empty fits =>
      have := hsize _ _ empty
      omega
    | name stored _ fits =>
      have := hsize _ _ stored
      omega
  · rintro ⟨rfl, rfl⟩
    exact .full

/-- Where no byte is left, what has been read is all. -/
theorem pure_eq_ok_of_remaining (read : Array (UInt32 × String)) (hc : c.Inside)
    (h : c.remaining = 0) : (pure ⟨read.toList⟩ : Read NameTable) c = .ok t c' ↔
      ∃ entries stop, Lists c.source c.limit stores origin c.pos entries stop ∧
        t = ⟨read.toList ++ entries⟩ ∧ c' = c.moveTo stop := by
  have hpos : c.pos = c.limit := Nat.le_antisymm hc.2.1 (Nat.le_of_sub_eq_zero h)
  have hstays : c.moveTo c.limit = c := by
    rw [← hpos]
    rfl
  rw [pure_eq_ok, hpos]
  simp only [lists_limit hsize]
  constructor
  · rintro ⟨rfl, rfl⟩
    exact ⟨[], _, ⟨rfl, rfl⟩, by rw [List.append_nil], hstays.symm⟩
  · rintro ⟨_, _, ⟨rfl, rfl⟩, rfl, rfl⟩
    exact ⟨by rw [List.append_nil], hstays⟩

/-- Behind a name the cursor is still in its window, and fewer bytes are left. -/
theorem inside_of_stored {taken : List UInt8} {text : String} (hstores : stores taken text)
    (hc : c.Inside) (hfits : c.pos + taken.length ≤ c.limit) :
    (c.moveTo (c.pos + taken.length)).Inside ∧
      (c.moveTo (c.pos + taken.length)).remaining < c.remaining := by
  have hpositive := hsize taken text hstores
  refine ⟨hc.moveTo (Nat.le_add_right _ _) hfits, ?_⟩
  show c.limit - (c.pos + taken.length) < c.limit - c.pos
  omega

/-- What has been read stays in front of what is listed. Each name takes a byte, so the bound is
never reached before the limit. -/
theorem readEntries_eq_ok (hname : name.Takes stores) (read : Array (UInt32 × String))
    (bound : Nat) (hc : c.Inside) (hbound : c.remaining ≤ bound) :
    readEntries origin name read bound c = .ok t c' ↔
      ∃ entries stop, Lists c.source c.limit stores origin c.pos entries stop ∧
        t = ⟨read.toList ++ entries⟩ ∧ c' = c.moveTo stop := by
  induction bound generalizing read c with
  | zero => exact pure_eq_ok_of_remaining hsize read hc (Nat.le_zero.1 hbound)
  | succ bound ih =>
    unfold readEntries
    rw [remaining_bind_eq_ok]
    by_cases hleft : c.remaining = 0
    · rw [if_pos hleft]
      exact pure_eq_ok_of_remaining hsize read hc hleft
    rw [if_neg hleft, position_bind_eq_ok, bind_eq_ok]
    simp only [hname c hc]
    constructor
    · rintro ⟨text, _, ⟨taken, hstores, hfits, hholds, rfl⟩, hrest⟩
      by_cases hempty : text.isEmpty = true
      · rw [if_pos hempty, pure_eq_ok] at hrest
        obtain ⟨rfl, rfl⟩ := hrest
        rw [String.isEmpty_iff] at hempty
        exact ⟨[], _, .padded (hempty ▸ hstores) hfits hholds, by rw [List.append_nil], rfl⟩
      · rw [if_neg hempty] at hrest
        rw [String.isEmpty_iff] at hempty
        obtain ⟨hinside, hless⟩ := inside_of_stored hsize hstores hc hfits
        obtain ⟨entries, stop, hlists, rfl, rfl⟩ := (ih _ hinside (by omega)).1 hrest
        exact ⟨_, stop, .name hstores hempty hfits hholds hlists, by simp, rfl⟩
    · rintro ⟨entries, stop, hlists, rfl, rfl⟩
      generalize hpos : c.pos = position at hlists
      cases hlists with
      | full => exact absurd (by rw [Cursor.remaining, hpos, Nat.sub_self]) hleft
      | padded hstores hfits hholds =>
        subst hpos
        refine ⟨"", _, ⟨_, hstores, hfits, hholds, rfl⟩, ?_⟩
        rw [if_pos (by rfl), pure_eq_ok, List.append_nil]
        exact ⟨rfl, rfl⟩
      | name hstores hempty hfits hholds hothers =>
        subst hpos
        obtain ⟨hinside, hless⟩ := inside_of_stored hsize hstores hc hfits
        refine ⟨_, _, ⟨_, hstores, hfits, hholds, rfl⟩, ?_⟩
        rw [if_neg (by rwa [String.isEmpty_iff])]
        exact (ih _ hinside (by omega)).2 ⟨_, stop, hothers, by simp, rfl⟩

/-- The names from the position on are read, whatever the number of bytes that are left. -/
theorem readFrom_eq_ok (hname : name.Takes stores) (hc : c.Inside) :
    readFrom origin name c = .ok t c' ↔
      ∃ stop, Lists c.source c.limit stores origin c.pos t.entries stop ∧ c' = c.moveTo stop := by
  rw [readFrom, remaining_bind_eq_ok, readEntries_eq_ok hsize hname _ _ hc (Nat.le_refl _)]
  constructor
  · rintro ⟨entries, stop, hlists, rfl, rfl⟩
    exact ⟨stop, hlists, rfl⟩
  · rintro ⟨stop, hlists, rfl⟩
    exact ⟨t.entries, stop, hlists, rfl, rfl⟩

end Reading

/-! ## Looking names up -/

/-- Each offset is that of one entry. -/
def Addressed (t : NameTable) : Prop :=
  (t.entries.map (·.1)).Nodup

theorem Addressed.nameAt?_eq_some_iff (h : t.Addressed) {offset : UInt32} {text : String} :
    t.nameAt? offset = some text ↔ (offset, text) ∈ t.entries := by
  obtain ⟨entries⟩ := t
  unfold Addressed nameAt? at *
  simp only at h ⊢
  induction entries with
  | nil => simp
  | cons entry rest ih =>
    rw [List.map_cons, List.nodup_cons] at h
    rw [List.find?_cons, List.mem_cons]
    by_cases heq : entry.1 = offset
    · -- the first entry answers, and no other has its offset
      subst heq
      have hother : (entry.1, text) ∉ rest := fun hmem => h.1 (List.mem_map.2 ⟨_, hmem, rfl⟩)
      simp [hother, Prod.ext_iff, eq_comm]
    · have hfirst : (offset, text) ≠ entry := fun hentry => heq (hentry ▸ rfl)
      rw [show (entry.1 == offset) = false from beq_false_of_ne heq]
      simp only [hfirst, false_or]
      exact ih h.2

theorem toNat_offsetOf {distance : Nat} (h : distance < UInt32.size) :
    (offsetOf distance).toNat = distance := by
  rw [offsetOf, Nat.min_eq_left (Nat.le_of_lt_succ h)]
  exact UInt32.toNat_ofNat_of_lt' h

/-- As long as no distance from the origin is too large for an offset, the offsets increase. -/
theorem Lists.increasing {source : ByteArray} {limit position stop : Nat}
    {entries : List (UInt32 × String)}
    (h : Lists source limit stores origin position entries stop)
    (hsize : ∀ taken text, stores taken text → 0 < taken.length) (horigin : origin ≤ position)
    (hlimit : limit ≤ origin + 0xffffffff) :
    (∀ entry ∈ entries, position - origin ≤ entry.1.toNat) ∧
      entries.Pairwise fun a b => a.1 < b.1 := by
  induction h with
  | full => exact ⟨by simp, .nil⟩
  | padded => exact ⟨by simp, .nil⟩
  | @name position stop taken text rest hstores hempty hfits hholds hothers ih =>
    have hpositive := hsize _ _ hstores
    have hoffset : (offsetOf (position - origin)).toNat = position - origin :=
      toNat_offsetOf (by rw [UInt32.size]; omega)
    obtain ⟨hfirst, hothers⟩ := ih (by omega)
    refine ⟨?_, List.pairwise_cons.2 ⟨?_, hothers⟩⟩
    · rintro entry (_ | ⟨_, hentry⟩)
      · exact Nat.le_of_eq hoffset.symm
      · have := hfirst entry hentry
        omega
    · intro entry hentry
      rw [UInt32.lt_iff_toNat_lt, hoffset]
      have := hfirst entry hentry
      omega

theorem Lists.addressed {source : ByteArray} {limit position stop : Nat} {t : NameTable}
    (h : Lists source limit stores origin position t.entries stop)
    (hsize : ∀ taken text, stores taken text → 0 < taken.length) (horigin : origin ≤ position)
    (hlimit : limit ≤ origin + 0xffffffff) : t.Addressed := by
  obtain ⟨-, hincreasing⟩ := h.increasing hsize horigin hlimit
  refine List.Pairwise.map _ ?_ hincreasing
  intro a b hlt heq
  exact UInt32.lt_irrefl _ (heq ▸ hlt)

end CodeView.NameTable
