import CodeView.Proofs.Reading

/-!
# The same bytes elsewhere

Two sources may hold the same bytes, each in a window of its own. A `Relocation` is such a pair of
windows. Readings `Agree` under it if they differ by the distance of the windows and in nothing
else: both succeed with one value, or both fail with one error, and then the cursors and the
positions in the error lie that distance apart. There is one lemma a reading, and a position that
a reading is given must lie that distance apart too.
-/

namespace CodeView

/-- The bytes of a window, which another source holds `distance` further on. -/
structure Relocation where
  source : ByteArray
  target : ByteArray
  start : Nat
  limit : Nat
  distance : Nat
  same : ∀ i, start ≤ i → i < limit → byteAt target (i + distance) = byteAt source i
  /-- what an offset in the window leads to can be named in both sources or in neither -/
  nameable : ∀ base, start ≤ base → base ≤ limit → ∀ offset : UInt32,
    base + distance + offset.toNat ≤ Cursor.maxPosition ↔
      base + offset.toNat ≤ Cursor.maxPosition

namespace Relocation

variable {α β : Type} {m : Relocation}

/-- The position lies in the window; its end is allowed. -/
structure Within (m : Relocation) (pos : Nat) : Prop where
  start : m.start ≤ pos
  limit : pos ≤ m.limit

/-- A cursor in the window. -/
def here (m : Relocation) (pos : Nat) : Cursor :=
  ⟨m.source, m.start, m.limit, pos⟩

/-- The cursor at the same byte of the other window. -/
def there (m : Relocation) (pos : Nat) : Cursor :=
  ⟨m.target, m.start + m.distance, m.limit + m.distance, pos + m.distance⟩

/-- Two outcomes, one in each window, that differ by the distance. -/
inductive Matches (m : Relocation) :
    EStateM.Result FormatError Cursor α → EStateM.Result FormatError Cursor α → Prop
  | ok (a : α) {pos : Nat} (within : m.Within pos) :
      Matches m (.ok a (m.here pos)) (.ok a (m.there pos))
  | error (e : FormatError) {pos : Nat} (within : m.Within pos) :
      Matches m (.error e (m.here pos)) (.error (e.shift m.distance) (m.there pos))

/-- Wherever both readings begin at the same byte, their outcomes match. -/
def Agree (m : Relocation) (r r' : Read α) : Prop :=
  ∀ pos, m.Within pos → m.Matches (r (m.here pos)) (r' (m.there pos))

/-- A value of `size` bytes depends on no others. -/
def Local (m : Relocation) (size : Nat) (value : ByteArray → Nat → α) : Prop :=
  ∀ pos, m.start ≤ pos → pos + size ≤ m.limit →
    value m.target (pos + m.distance) = value m.source pos

theorem Matches.of_ok {a : α} {c' : Cursor} {y : EStateM.Result FormatError Cursor α}
    (h : m.Matches (.ok a c') y) : ∃ pos, c' = m.here pos ∧ y = .ok a (m.there pos) := by
  cases h with
  | ok _ _ => exact ⟨_, rfl, rfl⟩

theorem Matches.of_error {e : FormatError} {c' : Cursor}
    {y : EStateM.Result FormatError Cursor α} (h : m.Matches (.error e c') y) :
    ∃ pos, c' = m.here pos ∧ y = .error (e.shift m.distance) (m.there pos) := by
  cases h with
  | error _ _ => exact ⟨_, rfl, rfl⟩

/-! ## A content between other bytes -/

section Between

variable {before content after : ByteArray} {what : String}

/-- The content alone, and the same content between other bytes. Both sources are so short that no
offset leads from them to a position without a name. -/
def between (before content after : ByteArray)
    (hsize : (before ++ content ++ after).size < 0x8000000000000000) : Relocation where
  source := content
  target := before ++ content ++ after
  start := 0
  limit := content.size
  distance := before.size
  same := by
    intro i _ hi
    have hleft : i + before.size < (before ++ content).size := by
      rw [ByteArray.size_append]
      omega
    rw [byteAt_append_left hleft, Nat.add_comm, byteAt_append_right]
  nameable := by
    intro base _ hbase offset
    have hoffset := offset.toNat_lt
    rw [ByteArray.size_append, ByteArray.size_append] at hsize
    unfold Cursor.maxPosition UInt64.size
    omega

theorem window_between (hsize : (before ++ content ++ after).size < 0x8000000000000000) :
    (Cursor.ofBytes (before ++ content ++ after)).window before.size content.size what =
      .ok ((between before content after hsize).there 0) := by
  rw [Cursor.window_eq_ok]
  constructor
  · show before.size + content.size ≤ (before ++ content ++ after).size
    rw [ByteArray.size_append, ByteArray.size_append]
    omega
  · show (⟨_, 0 + before.size, content.size + before.size, 0 + before.size⟩ : Cursor) = _
    rw [Nat.zero_add, Nat.add_comm content.size]
    rfl

end Between

/-! ## Values -/

theorem byteAt_eq {pos i : Nat} (hstart : m.start ≤ pos) (hlimit : pos + i < m.limit) :
    byteAt m.target (pos + m.distance + i) = byteAt m.source (pos + i) := by
  rw [Nat.add_right_comm]
  exact m.same (pos + i) (by omega) hlimit

/-- An integer that lies `skip` bytes behind a position. -/
theorem wordAt_eq (α : Type) [Word α] (skip : Nat) {pos : Nat} (hstart : m.start ≤ pos)
    (hlimit : pos + skip + Word.width α ≤ m.limit) :
    wordAt α m.target (pos + m.distance + skip) = wordAt α m.source (pos + skip) := by
  rw [Nat.add_right_comm]
  apply wordAt_congr
  intro i hi
  exact byteAt_eq (by omega) (by omega)

theorem local_wordAt [Word α] : m.Local (Word.width α) (wordAt α) :=
  fun _ hstart hlimit => wordAt_eq α 0 hstart hlimit

theorem local_bytesAt (length : Nat) :
    m.Local length fun source pos => bytesAt source pos length := by
  intro pos hstart hlimit
  apply bytesAt_congr
  intro i hi
  exact byteAt_eq hstart (by omega)

theorem Local.items {size : Nat} {item : ByteArray → Nat → α} (h : m.Local size item)
    (count : Nat) : m.Local (count * size) fun source pos =>
      Array.ofFn fun i : Fin count => item source (pos + i * size) := by
  intro pos hstart hlimit
  show Array.ofFn _ = Array.ofFn _
  congr 1
  funext i
  have hi : (i + 1) * size ≤ count * size := Nat.mul_le_mul_right size i.isLt
  rw [Nat.add_one_mul] at hi
  rw [Nat.add_right_comm]
  exact h (pos + i * size) (by omega) (by omega)

theorem findZero_eq {pos count : Nat} (hstart : m.start ≤ pos) (hlimit : pos + count ≤ m.limit) :
    Read.findZero m.target (pos + m.distance) count =
      (Read.findZero m.source pos count).map (· + m.distance) := by
  induction count generalizing pos with
  | zero => rfl
  | succ count ih =>
    have first : byteAt m.target (pos + m.distance) = byteAt m.source pos :=
      m.same pos hstart (by omega)
    have rest : Read.findZero m.target (pos + 1 + m.distance) count =
        (Read.findZero m.source (pos + 1) count).map (· + m.distance) :=
      ih (by omega) (by omega)
    rw [Read.findZero, Read.findZero, first, Nat.add_right_comm, rest]
    split <;> rfl

/-! ## Sequences -/

namespace Agree

theorem pure (a : α) : m.Agree (Pure.pure a) (Pure.pure a) :=
  fun _ hpos => .ok a hpos

theorem throw (e : FormatError) :
    m.Agree (throw e : Read α) (throw (e.shift m.distance)) :=
  fun _ hpos => .error e hpos

/-- What follows a reading may rely on what the reading has checked. -/
theorem bind_of_ok {r r' : Read α} {k k' : α → Read β} (h : m.Agree r r')
    (hk : ∀ a pos pos', m.Within pos' → r (m.here pos) = .ok a (m.here pos') →
      m.Matches (k a (m.here pos')) (k' a (m.there pos'))) : m.Agree (r >>= k) (r' >>= k') := by
  intro pos hpos
  have first := h pos hpos
  show m.Matches (EStateM.bind r k (m.here pos)) (EStateM.bind r' k' (m.there pos))
  unfold EStateM.bind
  generalize hr : r (m.here pos) = x, r' (m.there pos) = y at first ⊢
  cases first with
  | ok a hpos' => exact hk a pos _ hpos' hr
  | error e hpos' => exact .error e hpos'

theorem bind {r r' : Read α} {k k' : α → Read β} (h : m.Agree r r')
    (hk : ∀ a, m.Agree (k a) (k' a)) : m.Agree (r >>= k) (r' >>= k') :=
  h.bind_of_ok fun a _ pos' hpos' _ => hk a pos' hpos'

theorem ite {p : Prop} [Decidable p] {r r' s s' : Read α} (h : m.Agree r r')
    (h' : m.Agree s s') : m.Agree (if p then r else s) (if p then r' else s') := by
  split
  · exact h
  · exact h'

theorem mapM {items : List α} {r r' : α → Read β} (h : ∀ item, m.Agree (r item) (r' item)) :
    m.Agree (items.mapM r) (items.mapM r') := by
  induction items with
  | nil => exact pure []
  | cons item rest ih =>
    rw [List.mapM_cons, List.mapM_cons]
    exact (h item).bind fun _ => ih.bind fun _ => pure _

/-- What a check reports must carry no position. -/
theorem check {x : Except FormatError α} (h : ∀ e, x = .error e → e.shift m.distance = e) :
    m.Agree (Read.check x) (Read.check x) := by
  cases x with
  | ok a => exact pure a
  | error e =>
    have agree := throw (m := m) (α := α) e
    rw [h e rfl] at agree
    exact agree

/-- A position is `distance` further on in the other window. -/
theorem position {k k' : Nat → Read β}
    (h : ∀ pos, m.Within pos → m.Agree (k pos) (k' (pos + m.distance))) :
    m.Agree (Read.position >>= k) (Read.position >>= k') :=
  fun pos hpos => h pos hpos pos hpos

theorem get {k k' : Cursor → Read β}
    (h : ∀ pos, m.Within pos → m.Agree (k (m.here pos)) (k' (m.there pos))) :
    m.Agree (MonadState.get >>= k) (MonadState.get >>= k') :=
  fun pos hpos => h pos hpos pos hpos

/-! ## Single readings -/

theorem remaining : m.Agree Read.remaining Read.remaining := by
  intro pos hpos
  show m.Matches (.ok (m.limit - pos) (m.here pos))
    (.ok (m.limit + m.distance - (pos + m.distance)) (m.there pos))
  rw [Nat.add_sub_add_right]
  exact .ok _ hpos

theorem seek (target : Nat) : m.Agree (Read.seek target) (Read.seek (target + m.distance)) := by
  intro pos hpos
  show m.Matches (if m.start ≤ target ∧ target ≤ m.limit then _ else _)
    (if m.start + m.distance ≤ target + m.distance ∧
      target + m.distance ≤ m.limit + m.distance then _ else _)
  by_cases htarget : m.start ≤ target ∧ target ≤ m.limit
  · rw [if_pos htarget, if_pos (by omega)]
    exact .ok () ⟨htarget.1, htarget.2⟩
  · rw [if_neg htarget, if_neg (by omega)]
    exact .error (.outOfBounds target 0 m.limit) hpos

theorem seekFrom {base : Nat} (hbase : m.Within base) (offset : UInt32) :
    m.Agree (Read.seekFrom base offset) (Read.seekFrom (base + m.distance) offset) := by
  intro pos hpos
  have hname := m.nameable base hbase.start hbase.limit offset
  show m.Matches (if base + offset.toNat ≤ Cursor.maxPosition then _ else _)
    (if base + m.distance + offset.toNat ≤ Cursor.maxPosition then _ else _)
  by_cases htarget : base + offset.toNat ≤ Cursor.maxPosition
  · rw [if_pos htarget, if_pos (hname.2 htarget), Nat.add_right_comm]
    exact seek (base + offset.toNat) pos hpos
  · rw [if_neg htarget, if_neg (mt hname.1 htarget)]
    exact .error (.outOfBounds base 0 m.limit) hpos

theorem ensure (count size : Nat) :
    m.Agree (Read.ensure count size) (Read.ensure count size) := by
  intro pos hpos
  show m.Matches (if min (count * size) Cursor.maxPosition ≤ m.limit - pos then _ else _)
    (if min (count * size) Cursor.maxPosition ≤
      m.limit + m.distance - (pos + m.distance) then _ else _)
  rw [Nat.add_sub_add_right]
  by_cases hroom : min (count * size) Cursor.maxPosition ≤ m.limit - pos
  · rw [if_pos hroom, if_pos hroom]
    exact .ok () hpos
  · rw [if_neg hroom, if_neg hroom]
    exact .error (.outOfBounds pos _ m.limit) hpos

/-- Behind a check the items lie in the window, if their total can be named. -/
theorem ensure_position {count size : Nat} (hcount : count * size ≤ Cursor.maxPosition)
    {k k' : Nat → Read β}
    (h : ∀ pos, m.Within pos → pos + count * size ≤ m.limit →
      m.Agree (k pos) (k' (pos + m.distance))) :
    m.Agree (Read.ensure count size >>= fun _ => Read.position >>= k)
      (Read.ensure count size >>= fun _ => Read.position >>= k') := by
  refine (ensure count size).bind_of_ok ?_
  intro _ pos pos' hpos' hrun
  obtain ⟨hroom, hsame⟩ := Read.ensure_eq_ok.1 hrun
  -- the check moves nothing, so it still holds where the position is asked for
  obtain rfl : pos' = pos := congrArg Cursor.pos hsame
  rw [Nat.min_eq_left hcount] at hroom
  have hfit : pos' + count * size ≤ m.limit := by
    have hlimit : pos' ≤ m.limit := hpos'.limit
    have hroom : count * size ≤ m.limit - pos' := hroom
    omega
  exact h pos' hpos' hfit pos' hpos'

theorem fixed {length : Nat} {value : ByteArray → Nat → α} (h : m.Local length value) :
    m.Agree (Read.fixed length value) (Read.fixed length value) := by
  intro pos hpos
  show m.Matches (if pos + length ≤ m.limit then _ else _)
    (if pos + m.distance + length ≤ m.limit + m.distance then _ else _)
  by_cases hfit : pos + length ≤ m.limit
  · rw [if_pos hfit, if_pos (by omega)]
    show m.Matches (.ok (value m.source pos) (m.here (pos + length)))
      (.ok (value m.target (pos + m.distance)) ⟨_, _, _, pos + m.distance + length⟩)
    rw [h pos hpos.start hfit, Nat.add_right_comm]
    exact .ok _ ⟨Nat.le_add_right_of_le hpos.start, hfit⟩
  · rw [if_neg hfit, if_neg (by omega)]
    exact .error (.outOfBounds pos length m.limit) hpos

theorem word (α : Type) [Word α] : m.Agree (Read.word α) (Read.word α) :=
  fixed local_wordAt

theorem bytes (length : Nat) : m.Agree (Read.bytes length) (Read.bytes length) :=
  fixed (local_bytesAt length)

theorem table {size : Nat} {item : ByteArray → Nat → α} (h : m.Local size item) (count : Nat) :
    m.Agree (Read.table count size item) (Read.table count size item) :=
  (ensure count size).bind fun _ => fixed (h.items count)

theorem words (α : Type) [Word α] (count : Nat) :
    m.Agree (Read.words α count) (Read.words α count) :=
  table local_wordAt count

theorem prefixedName : m.Agree Read.prefixedName Read.prefixedName :=
  (word UInt8).bind fun length => (bytes length.toNat).bind fun _ => pure _

theorem terminatedName : m.Agree Read.terminatedName Read.terminatedName := by
  intro pos hpos
  have hstart := hpos.start
  have hlimit := hpos.limit
  have hleft : (m.there pos).remaining = (m.here pos).remaining := Nat.add_sub_add_right _ _ _
  have hremaining : (m.here pos).remaining = m.limit - pos := rfl
  have hfind : Read.findZero (m.there pos).source (m.there pos).pos (m.here pos).remaining =
      (Read.findZero (m.here pos).source (m.here pos).pos (m.here pos).remaining).map
        (· + m.distance) :=
    findZero_eq hstart (by omega)
  unfold Read.terminatedName
  rw [hleft, hfind]
  cases hzero : Read.findZero (m.here pos).source (m.here pos).pos (m.here pos).remaining with
  | none => exact .error (.outOfBounds pos ((m.here pos).remaining + 1) m.limit) hpos
  | some stop =>
    obtain ⟨hfrom, hto⟩ : pos ≤ stop ∧ stop < pos + (m.here pos).remaining :=
      Read.bounds_of_findZero hzero
    have hname : bytesAt m.target (pos + m.distance) (stop - pos) =
        bytesAt m.source pos (stop - pos) := local_bytesAt (stop - pos) pos hstart (by omega)
    show m.Matches (.ok (Text.Lossy.decode (bytesAt m.source pos (stop - pos))) (m.here (stop + 1)))
      (.ok (Text.Lossy.decode (bytesAt m.target (pos + m.distance)
        (stop + m.distance - (pos + m.distance)))) ⟨_, _, _, stop + m.distance + 1⟩)
    rw [Nat.add_sub_add_right, hname, Nat.add_right_comm]
    exact .ok _ ⟨by omega, by omega⟩

end Agree

end Relocation

end CodeView
