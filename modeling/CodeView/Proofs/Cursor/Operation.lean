import CodeView.Cursor.Operation
import CodeView.Proofs.Reading.Taken

/-!
# What a cursor does

`Cursor.Does` says, operation by operation, when a cursor succeeds, what it answers and where it then
stands. `Cursor.perform_eq_ok_iff` shows that it does this and nothing else, and
`Cursor.eq_of_perform_eq_error` where a failure leaves it.
-/

namespace CodeView

namespace Cursor

/-! ## Successes -/

/-- The bytes that a reading can take, and the value that it makes of them. -/
inductive Operation.Stores : Operation → List UInt8 → Value → Prop
  | bytes {length : Nat} {taken : List UInt8} (enough : taken.length = length) :
      Stores (.bytes length) taken (.bytes taken)
  | word {width : Width} (n : width.Integer) :
      Stores (.word width) (wordBytes n) (.number (Word.toNat n))
  | words {width : Width} {count : Nat} {ns : Array width.Integer} (enough : ns.size = count) :
      Stores (.words width count) (ns.toList.flatMap wordBytes)
        (.numbers (ns.toList.map Word.toNat))
  | prefixedName {name : List UInt8} (short : name.length < 256) :
      Stores .prefixedName (prefixedBytes name) (.name (Text.Lossy.decode name))
  | terminatedName {name : List UInt8} (nonzero : 0 ∉ name) :
      Stores .terminatedName (terminatedBytes name) (.name (Text.Lossy.decode name))

/-- An operation succeeds with an answer and leaves the cursor in this state. -/
inductive Does (c : Cursor) : Operation → Value → Cursor → Prop
  | window {start length : Nat} {what : String} (fits : start + length ≤ c.source.size) :
      Does c (.window start length what) (.cursor ⟨c.source, start, start + length, start⟩) c
  | copy : Does c .copy (.cursor c) c
  | seek {target : Nat} (start : c.start ≤ target) (limit : target ≤ c.limit) :
      Does c (.seek target) .done (c.moveTo target)
  | seekFrom {base : Nat} {offset : UInt32} (start : c.start ≤ base + offset.toNat)
      (limit : base + offset.toNat ≤ c.limit) :
      Does c (.seekFrom base offset) .done (c.moveTo (base + offset.toNat))
  | ensure {count size : Nat} (fits : count * size ≤ c.limit - c.pos) :
      Does c (.ensure count size) .done c
  /-- a reading takes the bytes that come next -/
  | read {op : Operation} {taken : List UInt8} {v : Value} (stores : op.Stores taken v)
      (fits : c.pos + taken.length ≤ c.limit) (found : Holds c.source c.pos taken) :
      Does c op v (c.moveTo (c.pos + taken.length))

variable {c c' : Cursor} {op : Operation} {v : Value} {taken : List UInt8}

instance : (width : Width) → ExactWord width.Integer
  | .one => inferInstanceAs (ExactWord UInt8)
  | .two => inferInstanceAs (ExactWord UInt16)
  | .four => inferInstanceAs (ExactWord UInt32)
  | .eight => inferInstanceAs (ExactWord UInt64)

namespace Operation

/-! ### Readings -/

theorem takes_bytes (length : Nat) : (bytes length).perform.Takes (bytes length).Stores := by
  refine (Read.takes_bytes length).map Value.bytes fun taken v => ⟨fun h => ?_, ?_⟩
  · cases h with
    | bytes enough => exact ⟨_, ⟨enough, rfl⟩, rfl⟩
  · rintro ⟨_, ⟨enough, rfl⟩, rfl⟩
    exact .bytes enough

theorem takes_word (width : Width) : (word width).perform.Takes (word width).Stores := by
  refine Read.takes_word.map (fun n => Value.number (Word.toNat n)) fun taken v => ⟨fun h => ?_, ?_⟩
  · cases h with
    | word n => exact ⟨n, rfl, rfl⟩
  · rintro ⟨n, rfl, rfl⟩
    exact .word n

theorem takes_words (width : Width) (count : Nat) :
    (words width count).perform.Takes (words width count).Stores := by
  refine (Read.takes_words count).map (fun ns => Value.numbers (ns.toList.map Word.toNat))
    fun taken v => ⟨fun h => ?_, ?_⟩
  · cases h with
    | words enough => exact ⟨_, ⟨enough, rfl⟩, rfl⟩
  · rintro ⟨_, ⟨enough, rfl⟩, rfl⟩
    exact .words enough

theorem takes_prefixedName : prefixedName.perform.Takes prefixedName.Stores := by
  refine Read.takes_prefixedName.map Value.name fun taken v => ⟨fun h => ?_, ?_⟩
  · cases h with
    | prefixedName short => exact ⟨_, ⟨_, short, rfl, rfl⟩, rfl⟩
  · rintro ⟨_, ⟨name, short, rfl, rfl⟩, rfl⟩
    exact .prefixedName short

theorem takes_terminatedName : terminatedName.perform.Takes terminatedName.Stores := by
  refine Read.takes_terminatedName.map Value.name fun taken v => ⟨fun h => ?_, ?_⟩
  · cases h with
    | terminatedName nonzero => exact ⟨_, ⟨_, nonzero, rfl, rfl⟩, rfl⟩
  · rintro ⟨_, ⟨name, nonzero, rfl, rfl⟩, rfl⟩
    exact .terminatedName nonzero

theorem Stores.takes (h : op.Stores taken v) : op.perform.Takes op.Stores := by
  cases h with
  | bytes => exact takes_bytes _
  | word => exact takes_word _
  | words => exact takes_words _ _
  | prefixedName => exact takes_prefixedName
  | terminatedName => exact takes_terminatedName

/-- The bytes that are taken decide the answer. -/
theorem Stores.unique {v' : Value} (h : op.Stores taken v) (h' : op.Stores taken v') : v = v' :=
  h.takes.unique h h'

end Operation

/-! ### All operations -/

theorem Does.of_takes (htakes : op.perform.Takes op.Stores) (hc : c.Inside)
    (h : op.perform c = .ok v c') : c.Does op v c' := by
  obtain ⟨taken, stores, fits, found, rfl⟩ := (htakes c hc v c').1 h
  exact .read stores fits found

theorem does_of_perform (hc : c.Inside) (hsize : c.source.size < maxPosition)
    (h : op.perform c = .ok v c') : c.Does op v c' := by
  have hlimit := hc.2.2
  cases op with
  | window start length what =>
    simp only [Operation.perform] at h
    split at h
    case h_1 made hwindow =>
      obtain ⟨fits, rfl⟩ := window_eq_ok.1 hwindow
      cases h
      exact .window fits
    case h_2 => cases h
  | copy =>
    cases h
    exact .copy
  | seek target =>
    simp only [Operation.perform, Read.bind_eq_ok, Read.seek_eq_ok, Read.pure_eq_ok] at h
    obtain ⟨_, _, ⟨hstart, hend, rfl⟩, rfl, rfl⟩ := h
    exact .seek hstart hend
  | seekFrom base offset =>
    simp only [Operation.perform, Read.seekFrom_bind_eq_ok, Read.pure_eq_ok] at h
    obtain ⟨⟨-, hstart, hend⟩, rfl, rfl⟩ := h
    exact .seekFrom hstart hend
  | ensure count size =>
    simp only [Operation.perform, Read.ensure_bind_eq_ok, Read.pure_eq_ok] at h
    obtain ⟨hroom, rfl, rfl⟩ := h
    rw [remaining] at hroom
    exact .ensure (by omega)
  | bytes length => exact .of_takes (Operation.takes_bytes length) hc h
  | word width => exact .of_takes (Operation.takes_word width) hc h
  | words width count => exact .of_takes (Operation.takes_words width count) hc h
  | prefixedName => exact .of_takes Operation.takes_prefixedName hc h
  | terminatedName => exact .of_takes Operation.takes_terminatedName hc h

theorem Does.perform_eq_ok (hc : c.Inside) (hsize : c.source.size < maxPosition)
    (h : c.Does op v c') : op.perform c = .ok v c' := by
  cases h with
  | window fits =>
    simp only [Operation.perform, window_eq_ok.2 ⟨fits, rfl⟩]
  | copy => rfl
  | seek start limit =>
    exact Read.bind_eq_ok.2 ⟨(), _, Read.seek_eq_ok.2 ⟨start, limit, rfl⟩, rfl⟩
  | seekFrom start limit =>
    have hend := hc.2.2
    exact Read.seekFrom_bind_eq_ok.2 ⟨⟨by omega, start, limit⟩, rfl⟩
  | ensure fits =>
    exact Read.ensure_bind_eq_ok.2 ⟨Nat.le_trans (Nat.min_le_left _ _) fits, rfl⟩
  | read stores fits found => exact (stores.takes c hc v _).2 ⟨_, stores, fits, found, rfl⟩

/-- **A cursor does what it is said to do, and nothing else.** -/
theorem perform_eq_ok_iff (hc : c.Inside) (hsize : c.source.size < maxPosition) :
    op.perform c = .ok v c' ↔ c.Does op v c' :=
  ⟨does_of_perform hc hsize, Does.perform_eq_ok hc hsize⟩

/-! ## Failures -/

theorem Operation.atomic_perform (h : op ≠ .prefixedName) : op.perform.Atomic := by
  cases op with
  | window start length what =>
    intro c e c' hr
    simp only [perform] at hr
    split at hr <;> cases hr
    rfl
  | copy =>
    intro c e c' hr
    cases hr
  | seek target => exact (Read.Atomic.seek target).map _
  | seekFrom base offset => exact (Read.Atomic.seekFrom base offset).map _
  | ensure count size => exact (Read.Atomic.ensure count size).map _
  | bytes length => exact (Read.Atomic.fixed _ _).map _
  | word width => exact (Read.Atomic.fixed _ _).map _
  | words width count => exact (Read.Atomic.table _ _ _).map _
  | prefixedName => exact absurd rfl h
  | terminatedName => exact Read.Atomic.terminatedName.map _

/-- A failure leaves the cursor where it was, but a name that is cut off leaves it behind the byte
that counts its bytes. -/
theorem eq_of_perform_eq_error {e : FormatError} (h : op.perform c = .error e c') :
    c' = if op = .prefixedName ∧ c.pos < c.limit then c.moveTo (c.pos + 1) else c := by
  by_cases hop : op = .prefixedName
  · subst hop
    obtain hname | ⟨_, _, -, hpure⟩ := Read.bind_eq_error.1 h
    · rw [Read.eq_of_prefixedName_eq_error hname]
      simp
    · cases hpure
  · rw [if_neg fun hboth => hop hboth.1]
    exact Operation.atomic_perform hop c e c' h

end Cursor

end CodeView
