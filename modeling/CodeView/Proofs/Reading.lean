import CodeView.Cursor
import CodeView.Proofs.Bytes

/-!
# When a reading succeeds

For each reading the exact condition under which it succeeds, with the value it gives and the
cursor it leaves. A sequence of readings is taken apart by `Read.bind_eq_ok`, and a list of
readings by `Read.Decides.mapM`.
-/

namespace CodeView

/-- The same window with the cursor at another position. -/
def Cursor.moveTo (c : Cursor) (pos : Nat) : Cursor :=
  { c with pos := pos }

namespace Cursor

variable (c : Cursor) (p q : Nat)

@[simp] theorem pos_moveTo : (c.moveTo p).pos = p := rfl

@[simp] theorem source_moveTo : (c.moveTo p).source = c.source := rfl

@[simp] theorem start_moveTo : (c.moveTo p).start = c.start := rfl

@[simp] theorem limit_moveTo : (c.moveTo p).limit = c.limit := rfl

@[simp] theorem moveTo_moveTo : (c.moveTo p).moveTo q = c.moveTo q := rfl

theorem Inside.moveTo {c : Cursor} {p : Nat} (hc : c.Inside) (hstart : c.pos ≤ p)
    (hlimit : p ≤ c.limit) : (c.moveTo p).Inside :=
  ⟨Nat.le_trans hc.1 hstart, hlimit, hc.2.2⟩

/-- The cursor is in its window, and every place of the source can be named. -/
structure Addressable (c : Cursor) : Prop where
  inside : c.Inside
  nameable : c.source.size ≤ maxPosition

theorem window_eq_ok {c w : Cursor} {start length : Nat} {what : String} :
    c.window start length what = .ok w ↔
      start + length ≤ c.source.size ∧ w = ⟨c.source, start, start + length, start⟩ := by
  unfold window
  split
  case isTrue h => simp [h, eq_comm]
  case isFalse h => simp [h]

/-- The window from a position to the end of the source. -/
theorem window_rest (source : ByteArray) (start : Nat) (what : String) :
    (ofBytes source).window start (source.size - start) what =
      if start ≤ source.size then .ok ⟨source, start, source.size, start⟩
      else .error (.truncated what 0 0) := by
  have hsource : (ofBytes source).source = source := rfl
  rw [window, hsource]
  by_cases hstart : start ≤ source.size
  · have hlimit : start + (source.size - start) = source.size := by omega
    simp [hstart, hlimit]
  · have hnone : source.size - start = 0 := by omega
    simp [hstart, hnone]

end Cursor

namespace Read

variable {α β : Type} {c c' : Cursor}

/-! ## Sequences -/

theorem bind_eq_ok {r : Read α} {k : α → Read β} {b : β} :
    (r >>= k) c = .ok b c' ↔ ∃ a c₁, r c = .ok a c₁ ∧ k a c₁ = .ok b c' := by
  show EStateM.bind r k c = .ok b c' ↔ _
  unfold EStateM.bind
  cases r c with
  | ok a c₁ =>
    constructor
    · intro h
      exact ⟨a, c₁, rfl, h⟩
    · intro h
      obtain ⟨_, _, h, h'⟩ := h
      cases h
      exact h'
  | error e c₁ => simp

theorem bind_eq_error {r : Read α} {k : α → Read β} {e : FormatError} :
    (r >>= k) c = .error e c' ↔
      r c = .error e c' ∨ ∃ a c₁, r c = .ok a c₁ ∧ k a c₁ = .error e c' := by
  show EStateM.bind r k c = .error e c' ↔ _
  unfold EStateM.bind
  cases r c with
  | ok a c₁ =>
    constructor
    · intro h
      exact .inr ⟨a, c₁, rfl, h⟩
    · rintro (h | ⟨_, _, h, h'⟩)
      · cases h
      · cases h
        exact h'
  | error e' c₁ => simp

theorem pure_eq_ok {a b : α} : (pure a : Read α) c = .ok b c' ↔ b = a ∧ c' = c := by
  show EStateM.Result.ok a c = .ok b c' ↔ _
  simp only [EStateM.Result.ok.injEq, eq_comm]

theorem throw_ne_ok {e : FormatError} {b : α} : (throw e : Read α) c ≠ .ok b c' := by
  intro h
  cases h

/-- The value of a check, or its failure. -/
def check : Except FormatError α → Read α
  | .ok a => pure a
  | .error e => throw e

theorem check_eq_ok {x : Except FormatError α} {a : α} :
    check x c = .ok a c' ↔ x = .ok a ∧ c' = c := by
  cases x with
  | ok b => simp only [check, pure_eq_ok, Except.ok.injEq, eq_comm]
  | error e => simp [check, throw_ne_ok]

/-- A reading that succeeds under one condition, with one value and one cursor, hands both on. -/
theorem bind_eq_ok_of {r : Read α} {fits : Prop} {value : α} {c₁ : Cursor}
    (h : ∀ a c', r c = .ok a c' ↔ fits ∧ a = value ∧ c' = c₁) (k : α → Read β) {b : β} :
    (r >>= k) c = .ok b c' ↔ fits ∧ k value c₁ = .ok b c' := by
  simp only [bind_eq_ok, h]
  constructor
  · intro h
    obtain ⟨_, _, ⟨hfits, rfl, rfl⟩, hk⟩ := h
    exact ⟨hfits, hk⟩
  · intro h
    obtain ⟨hfits, hk⟩ := h
    exact ⟨_, _, ⟨hfits, rfl, rfl⟩, hk⟩

/-- Giving up on a condition. -/
theorem guard_bind_eq_ok {p : Prop} [Decidable p] {e : FormatError} {k : α → Read β}
    {r : Read β} {b : β} :
    (if p then throw e >>= k else r) c = .ok b c' ↔ ¬ p ∧ r c = .ok b c' := by
  split
  case isTrue h =>
    simp only [h, not_true_eq_false, false_and, iff_false, bind_eq_ok]
    intro h
    obtain ⟨_, _, hthrow, -⟩ := h
    exact throw_ne_ok hthrow
  case isFalse h => simp [h]

/-! ## Single readings -/

theorem seek_eq_ok {target : Nat} {u : Unit} :
    seek target c = .ok u c' ↔ c.start ≤ target ∧ target ≤ c.limit ∧ c' = c.moveTo target := by
  unfold seek
  split
  case isTrue h => simp [h, Cursor.moveTo, eq_comm]
  case isFalse h =>
    simp only [reduceCtorEq, false_iff]
    intro h
    obtain ⟨h₁, h₂, -⟩ := h
    exact h ⟨h₁, h₂⟩

theorem seekFrom_eq_ok {base : Nat} {offset : UInt32} {u : Unit} :
    seekFrom base offset c = .ok u c' ↔
      base + offset.toNat ≤ Cursor.maxPosition ∧ c.start ≤ base + offset.toNat ∧
        base + offset.toNat ≤ c.limit ∧ c' = c.moveTo (base + offset.toNat) := by
  unfold seekFrom
  split
  case isTrue h => simp [h, seek_eq_ok]
  case isFalse h => simp [h]

theorem ensure_eq_ok {count size : Nat} {u : Unit} :
    ensure count size c = .ok u c' ↔
      min (count * size) Cursor.maxPosition ≤ c.remaining ∧ c' = c := by
  show (if min (count * size) Cursor.maxPosition ≤ c.remaining then _ else _) = _ ↔ _
  split
  case isTrue h => simp [h, eq_comm]
  case isFalse h => simp [h]

theorem fixed_eq_ok {length : Nat} {value : ByteArray → Nat → α} {a : α} :
    fixed length value c = .ok a c' ↔
      c.pos + length ≤ c.limit ∧ a = value c.source c.pos ∧ c' = c.moveTo (c.pos + length) := by
  unfold fixed
  split
  case isTrue h => simp [h, Cursor.moveTo, eq_comm]
  case isFalse h => simp [h]

theorem word_eq_ok [Word α] {a : α} :
    word α c = .ok a c' ↔
      c.pos + Word.width α ≤ c.limit ∧ a = wordAt α c.source c.pos ∧
        c' = c.moveTo (c.pos + Word.width α) :=
  fixed_eq_ok

theorem toList_ofFn (n : Nat) (f : Nat → α) :
    (Array.ofFn fun i : Fin n => f i).toList = (List.range n).map f := by
  rw [Array.toList_ofFn]
  apply List.ext_getElem
  · simp
  · intro i h₁ h₂
    simp

theorem table_eq_ok {count size : Nat} {item : ByteArray → Nat → α} {items : Array α} :
    table count size item c = .ok items c' ↔
      c.pos + count * size ≤ c.limit ∧
        items = Array.ofFn (fun i : Fin count => item c.source (c.pos + i * size)) ∧
        c' = c.moveTo (c.pos + count * size) := by
  simp only [table, bind_eq_ok, ensure_eq_ok, fixed_eq_ok]
  constructor
  · intro h
    obtain ⟨-, _, ⟨-, rfl⟩, h⟩ := h
    exact h
  · intro h
    refine ⟨(), c, ⟨?_, rfl⟩, h⟩
    simp only [Cursor.remaining]
    omega

theorem bytes_eq_ok {length : Nat} {read : List UInt8} :
    bytes length c = .ok read c' ↔
      c.pos + length ≤ c.limit ∧ read = bytesAt c.source c.pos length ∧
        c' = c.moveTo (c.pos + length) :=
  fixed_eq_ok

theorem prefixedName_eq_ok {name : String} :
    prefixedName c = .ok name c' ↔
      c.pos + 1 ≤ c.limit ∧ c.pos + 1 + (byteAt c.source c.pos).toNat ≤ c.limit ∧
        name = Text.Lossy.decode (bytesAt c.source (c.pos + 1) (byteAt c.source c.pos).toNat) ∧
        c' = c.moveTo (c.pos + 1 + (byteAt c.source c.pos).toNat) := by
  simp only [prefixedName, bind_eq_ok, word_eq_ok, bytes_eq_ok, pure_eq_ok, wordAt_uint8,
    width_uint8]
  constructor
  · intro h
    obtain ⟨_, _, ⟨hlength, rfl, rfl⟩, _, _, ⟨hname, rfl, rfl⟩, rfl, rfl⟩ := h
    exact ⟨hlength, hname, rfl, rfl⟩
  · intro h
    obtain ⟨hlength, hname, rfl, rfl⟩ := h
    exact ⟨_, _, ⟨hlength, rfl, rfl⟩, _, _, ⟨hname, rfl, rfl⟩, rfl, rfl⟩

/-- A zero is found among the bytes that are searched. -/
theorem bounds_of_findZero {source : ByteArray} {position count stop : Nat}
    (h : findZero source position count = some stop) :
    position ≤ stop ∧ stop < position + count := by
  induction count generalizing position with
  | zero => cases h
  | succ count ih =>
    rw [findZero] at h
    split at h
    · cases h
      omega
    · have := ih h
      omega

/-! ## Single readings before others

Rewriting with these runs a sequence of readings and collects the conditions on the way. -/

section Before

variable {k : α → Read β} {b : β}

theorem position_bind_eq_ok {k : Nat → Read β} :
    (position >>= k) c = .ok b c' ↔ k c.pos c = .ok b c' :=
  Iff.rfl

theorem remaining_bind_eq_ok {k : Nat → Read β} :
    (remaining >>= k) c = .ok b c' ↔ k c.remaining c = .ok b c' :=
  Iff.rfl

theorem seekFrom_bind_eq_ok {base : Nat} {offset : UInt32} {k : Unit → Read β} :
    (seekFrom base offset >>= k) c = .ok b c' ↔
      (base + offset.toNat ≤ Cursor.maxPosition ∧ c.start ≤ base + offset.toNat ∧
        base + offset.toNat ≤ c.limit) ∧ k () (c.moveTo (base + offset.toNat)) = .ok b c' :=
  bind_eq_ok_of (fun _ _ => by simp [seekFrom_eq_ok, and_assoc]) k

theorem ensure_bind_eq_ok {count size : Nat} {k : Unit → Read β} :
    (ensure count size >>= k) c = .ok b c' ↔
      min (count * size) Cursor.maxPosition ≤ c.remaining ∧ k () c = .ok b c' :=
  bind_eq_ok_of (fun _ _ => by simp [ensure_eq_ok]) k

theorem fixed_bind_eq_ok {length : Nat} {value : ByteArray → Nat → α} :
    (fixed length value >>= k) c = .ok b c' ↔
      c.pos + length ≤ c.limit ∧
        k (value c.source c.pos) (c.moveTo (c.pos + length)) = .ok b c' :=
  bind_eq_ok_of (fun _ _ => fixed_eq_ok) k

theorem word_bind_eq_ok [Word α] :
    (word α >>= k) c = .ok b c' ↔
      c.pos + Word.width α ≤ c.limit ∧
        k (wordAt α c.source c.pos) (c.moveTo (c.pos + Word.width α)) = .ok b c' :=
  fixed_bind_eq_ok

theorem table_bind_eq_ok {count size : Nat} {item : ByteArray → Nat → α}
    {k : Array α → Read β} :
    (table count size item >>= k) c = .ok b c' ↔
      c.pos + count * size ≤ c.limit ∧
        k (Array.ofFn fun i : Fin count => item c.source (c.pos + i * size))
          (c.moveTo (c.pos + count * size)) = .ok b c' :=
  bind_eq_ok_of (fun _ _ => table_eq_ok) k

theorem words_bind_eq_ok [Word α] {count : Nat} {k : Array α → Read β} :
    (words α count >>= k) c = .ok b c' ↔
      c.pos + count * Word.width α ≤ c.limit ∧
        k (Array.ofFn fun i : Fin count => wordAt α c.source (c.pos + i * Word.width α))
          (c.moveTo (c.pos + count * Word.width α)) = .ok b c' :=
  table_bind_eq_ok

theorem prefixedName_bind_eq_ok {k : String → Read β} :
    (prefixedName >>= k) c = .ok b c' ↔
      (c.pos + 1 ≤ c.limit ∧ c.pos + 1 + (byteAt c.source c.pos).toNat ≤ c.limit) ∧
        k (Text.Lossy.decode (bytesAt c.source (c.pos + 1) (byteAt c.source c.pos).toNat))
          (c.moveTo (c.pos + 1 + (byteAt c.source c.pos).toNat)) = .ok b c' :=
  bind_eq_ok_of (fun _ _ => by simp [prefixedName_eq_ok, and_assoc]) k

end Before

/-! ## What a reading gives, without the cursor -/

/-- The value of a reading, or its error. -/
def result (r : Read α) (c : Cursor) : Except FormatError α :=
  match r c with
  | .ok a _ => .ok a
  | .error e _ => .error e

theorem result_of_ok {r : Read α} {a : α} (h : r c = .ok a c') : r.result c = .ok a := by
  rw [result, h]

theorem result_eq_error {r : Read α} {e : FormatError} :
    r.result c = .error e ↔ ∃ c', r c = .error e c' := by
  rw [result]
  cases r c with
  | ok a c' => simp
  | error e' c' => simp

theorem result_remaining_bind {k : Nat → Read β} :
    (remaining >>= k).result c = (k c.remaining).result c := rfl

theorem result_position_bind {k : Nat → Read β} :
    (position >>= k).result c = (k c.pos).result c := rfl

theorem result_get_bind {k : Cursor → Read β} :
    (MonadState.get >>= k).result c = (k c).result c := rfl

theorem result_guard_bind {p : Prop} [Decidable p] {e : FormatError} {k : α → Read β}
    {r : Read β} :
    (if p then throw e >>= k else r).result c = if p then .error e else r.result c := by
  by_cases h : p
  · simp only [if_pos h]
    rfl
  · simp only [if_neg h]

theorem result_bind_of_ok {r : Read α} {k : α → Read β} {a : α} (h : r c = .ok a c') :
    (r >>= k).result c = (k a).result c' := by
  show result (EStateM.bind r k) c = _
  unfold result EStateM.bind
  rw [h]

theorem result_bind_of_error {r : Read α} {k : α → Read β} {e : FormatError}
    (h : r c = .error e c') : (r >>= k).result c = .error e := by
  show result (EStateM.bind r k) c = _
  unfold result EStateM.bind
  rw [h]

theorem result_fixed_bind {length : Nat} {value : ByteArray → Nat → α} {k : α → Read β} :
    (fixed length value >>= k).result c =
      if c.pos + length ≤ c.limit then
        (k (value c.source c.pos)).result (c.moveTo (c.pos + length))
      else .error (.outOfBounds c.pos length c.limit) := by
  by_cases hfit : c.pos + length ≤ c.limit
  · rw [if_pos hfit, result_bind_of_ok (fixed_eq_ok.2 ⟨hfit, rfl, rfl⟩)]
  · rw [if_neg hfit]
    exact result_bind_of_error (if_neg hfit)

theorem result_word_bind [Word α] {k : α → Read β} :
    (word α >>= k).result c =
      if c.pos + Word.width α ≤ c.limit then
        (k (wordAt α c.source c.pos)).result (c.moveTo (c.pos + Word.width α))
      else .error (.outOfBounds c.pos (Word.width α) c.limit) :=
  result_fixed_bind

theorem result_ensure_bind {count size : Nat} {k : Unit → Read β} :
    (ensure count size >>= k).result c =
      if min (count * size) Cursor.maxPosition ≤ c.remaining then (k ()).result c
      else .error (.outOfBounds c.pos (min (count * size) Cursor.maxPosition) c.limit) := by
  by_cases hroom : min (count * size) Cursor.maxPosition ≤ c.remaining
  · rw [if_pos hroom, result_bind_of_ok (ensure_eq_ok.2 ⟨hroom, rfl⟩)]
  · rw [if_neg hroom]
    exact result_bind_of_error (if_neg hroom)

theorem result_prefixedName_bind {k : String → Read β} :
    (prefixedName >>= k).result c =
      if c.pos + 1 ≤ c.limit then
        if c.pos + 1 + (byteAt c.source c.pos).toNat ≤ c.limit then
          (k (Text.Lossy.decode (bytesAt c.source (c.pos + 1) (byteAt c.source c.pos).toNat))).result
            (c.moveTo (c.pos + 1 + (byteAt c.source c.pos).toNat))
        else .error (.outOfBounds (c.pos + 1) (byteAt c.source c.pos).toNat c.limit)
      else .error (.outOfBounds c.pos 1 c.limit) := by
  simp only [prefixedName, bind_assoc, pure_bind, result_word_bind, wordAt_uint8, width_uint8]
  simp only [bytes, result_fixed_bind, Cursor.pos_moveTo, Cursor.source_moveTo,
    Cursor.limit_moveTo, Cursor.moveTo_moveTo]
  rfl

/-! ## Readings that begin with a jump -/

/-- Within the window of a cursor, and wherever in it the cursor stands, `r` succeeds exactly if
`fits` holds. Its value is then `value`, and the window stays the same. -/
structure Decides (c : Cursor) (r : Read α) (fits : Prop) (value : α) : Prop where
  ok_iff : ∀ pos a, (∃ c', r (c.moveTo pos) = .ok a c') ↔ fits ∧ a = value
  moves : ∀ pos a c', r (c.moveTo pos) = .ok a c' → ∃ pos', c' = c.moveTo pos'

theorem Decides.ok {r : Read α} {fits : Prop} {value : α} (h : Decides c r fits value)
    (hfits : fits) (pos : Nat) : ∃ pos', r (c.moveTo pos) = .ok value (c.moveTo pos') := by
  obtain ⟨c', hr⟩ := (h.ok_iff pos value).2 ⟨hfits, rfl⟩
  obtain ⟨pos', rfl⟩ := h.moves pos value c' hr
  exact ⟨pos', hr⟩

theorem Decides.of_ok {r : Read α} {fits : Prop} {value a : α} {pos : Nat}
    (h : Decides c r fits value) (hr : r (c.moveTo pos) = .ok a c') :
    fits ∧ a = value ∧ ∃ pos', c' = c.moveTo pos' := by
  obtain ⟨hfits, ha⟩ := (h.ok_iff pos a).1 ⟨c', hr⟩
  exact ⟨hfits, ha, h.moves pos a c' hr⟩

/-- What is made of the value does not matter. -/
theorem Decides.map {r : Read α} {fits : Prop} {value : α} (h : Decides c r fits value)
    (f : α → β) : Decides c (r >>= fun a => pure (f a)) fits (f value) := by
  constructor
  · intro pos b
    simp only [bind_eq_ok, pure_eq_ok]
    constructor
    · intro h
      obtain ⟨_, a, _, hr, rfl, rfl⟩ := h
      obtain ⟨hfits, rfl, -⟩ := h.of_ok hr
      exact ⟨hfits, rfl⟩
    · intro h
      obtain ⟨hfits, rfl⟩ := h
      obtain ⟨pos', hr⟩ := h.ok hfits pos
      exact ⟨_, value, _, hr, rfl, rfl⟩
  · intro pos b c' hr
    simp only [bind_eq_ok, pure_eq_ok] at hr
    obtain ⟨a, _, hr, rfl, rfl⟩ := hr
    exact h.moves pos a _ hr

/-- A list of such readings succeeds exactly if each of them does. -/
theorem Decides.mapM (items : List α) {r : α → Read β} {fits : α → Prop} {value : α → β}
    (h : ∀ item ∈ items, Decides c (r item) (fits item) (value item)) :
    Decides c (items.mapM r) (∀ item ∈ items, fits item) (items.map value) := by
  induction items with
  | nil =>
    constructor
    · intro pos read
      simp [pure_eq_ok]
    · intro pos read c' hr
      rw [List.mapM_nil, pure_eq_ok] at hr
      exact ⟨pos, hr.2⟩
  | cons item rest ih =>
    have first := h item List.mem_cons_self
    have others := ih fun i hi => h i (List.mem_cons_of_mem _ hi)
    -- both directions of the equivalence and the last field need this one
    have sound : ∀ pos read c', (item :: rest).mapM r (c.moveTo pos) = .ok read c' →
        (∀ i ∈ item :: rest, fits i) ∧ read = (item :: rest).map value ∧
          ∃ pos', c' = c.moveTo pos' := by
      intro pos read c' hr
      simp only [List.mapM_cons, bind_eq_ok, pure_eq_ok] at hr
      obtain ⟨_, _, hfirst, _, _, hothers, rfl, rfl⟩ := hr
      obtain ⟨hfits, rfl, pos₁, rfl⟩ := first.of_ok hfirst
      obtain ⟨hrest, rfl, pos₂, rfl⟩ := others.of_ok hothers
      refine ⟨?_, rfl, pos₂, rfl⟩
      simpa using ⟨hfits, hrest⟩
    constructor
    · intro pos read
      constructor
      · intro h
        obtain ⟨c', hr⟩ := h
        obtain ⟨hfits, hread, -⟩ := sound pos read c' hr
        exact ⟨hfits, hread⟩
      · intro h
        obtain ⟨hfits, rfl⟩ := h
        obtain ⟨pos₁, hfirst⟩ := first.ok (hfits item List.mem_cons_self) pos
        obtain ⟨pos₂, hothers⟩ :=
          others.ok (fun i hi => hfits i (List.mem_cons_of_mem _ hi)) pos₁
        refine ⟨c.moveTo pos₂, ?_⟩
        simp only [List.mapM_cons, bind_eq_ok, pure_eq_ok]
        exact ⟨_, _, hfirst, _, _, hothers, rfl, rfl⟩
    · intro pos read c' hr
      exact (sound pos read c' hr).2.2

end Read

end CodeView
