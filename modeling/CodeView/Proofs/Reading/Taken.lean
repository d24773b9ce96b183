import CodeView.Proofs.Reading
import CodeView.Proofs.Written

/-!
# What bytes a reading takes

A reading of stored values takes bytes that begin where the cursor stands. `Read.Takes` says which
bytes these can be, and for which value: the reading succeeds exactly if such bytes come next and
lie in the window, and leaves the cursor right behind them. There is one lemma a reading.
-/

namespace CodeView

namespace Read

variable {α β : Type} {r : Read α} {stores : List UInt8 → α → Prop} {c c' : Cursor}

/-- Anywhere in its window, a reading takes the bytes that come next if they store a value. -/
def Takes (r : Read α) (stores : List UInt8 → α → Prop) : Prop :=
  ∀ c : Cursor, c.Inside → ∀ a c', r c = .ok a c' ↔
    ∃ taken, stores taken a ∧ c.pos + taken.length ≤ c.limit ∧ Holds c.source c.pos taken ∧
      c' = c.moveTo (c.pos + taken.length)

namespace Takes

/-- Bytes store one value only. -/
theorem unique (h : r.Takes stores) {taken : List UInt8} {a a' : α} (ha : stores taken a)
    (ha' : stores taken a') : a = a' := by
  -- a source of just these bytes has room for either value, and only one is read
  have hlimit : (Cursor.ofBytes taken.toByteArray).pos + taken.length ≤
      (Cursor.ofBytes taken.toByteArray).limit := by
    simp [Cursor.ofBytes]
  have hread := (h _ (Cursor.inside_ofBytes _) a _).2 ⟨taken, ha, hlimit, .toByteArray taken, rfl⟩
  have hread' := (h _ (Cursor.inside_ofBytes _) a' _).2 ⟨taken, ha', hlimit, .toByteArray taken, rfl⟩
  rw [hread] at hread'
  cases hread'
  rfl

/-- The same bytes are taken for what is made of the value. -/
theorem map (h : r.Takes stores) (f : α → β) {stores' : List UInt8 → β → Prop}
    (hstores' : ∀ taken b, stores' taken b ↔ ∃ a, stores taken a ∧ b = f a) :
    (r >>= fun a => pure (f a)).Takes stores' := by
  intro c hc b c'
  simp only [bind_eq_ok, pure_eq_ok, hstores']
  constructor
  · rintro ⟨a, c₁, hr, rfl, rfl⟩
    obtain ⟨taken, ha, hlimit, hholds, rfl⟩ := (h c hc a _).1 hr
    exact ⟨taken, ⟨a, ha, rfl⟩, hlimit, hholds, rfl⟩
  · rintro ⟨taken, ⟨a, ha, rfl⟩, hlimit, hholds, rfl⟩
    exact ⟨a, _, (h c hc a _).2 ⟨taken, ha, hlimit, hholds, rfl⟩, rfl, rfl⟩

/-- A reading of a number of bytes that is known beforehand. -/
theorem of_fixed (length : Nat) (value : ByteArray → Nat → α)
    (hr : ∀ c a c', r c = .ok a c' ↔
      c.pos + length ≤ c.limit ∧ a = value c.source c.pos ∧ c' = c.moveTo (c.pos + length))
    (stored : ∀ source position, stores (bytesAt source position length) (value source position))
    (exact : ∀ taken a, stores taken a → taken.length = length ∧
      ∀ source position, Holds source position taken → a = value source position) :
    r.Takes stores := by
  intro c hc a c'
  rw [hr]
  constructor
  · rintro ⟨hlimit, rfl, rfl⟩
    refine ⟨_, stored c.source c.pos, ?_, .of_bytesAt ?_, ?_⟩
    · rwa [length_bytesAt]
    · exact Nat.le_trans hlimit hc.2.2
    · rw [length_bytesAt]
  · rintro ⟨taken, ha, hlimit, hholds, rfl⟩
    obtain ⟨rfl, hvalue⟩ := exact taken a ha
    exact ⟨hlimit, hvalue _ _ hholds, rfl⟩

end Takes

/-! ## Bytes and integers -/

theorem takes_bytes (length : Nat) :
    (bytes length).Takes fun taken read => taken.length = length ∧ read = taken := by
  refine .of_fixed length (bytesAt · · length) (fun _ _ _ => bytes_eq_ok) ?_ ?_
  · intro source position
    exact ⟨length_bytesAt _ _ _, rfl⟩
  · rintro taken _ ⟨rfl, rfl⟩
    exact ⟨rfl, fun _ _ hholds => hholds.bytesAt_eq.symm⟩

section Integers

variable [Word α] [ExactWord α]

theorem takes_word : (word α).Takes fun taken value => taken = wordBytes value := by
  refine .of_fixed (Word.width α) (wordAt α) (fun _ _ _ => word_eq_ok) ?_ ?_
  · intro source position
    exact (wordBytes_wordAt source position).symm
  · rintro taken value rfl
    exact ⟨length_wordBytes value, fun _ _ hholds => hholds.wordAt_eq.symm⟩

/-- Integers in a row are stored by the bytes that are there. -/
theorem flatMap_wordBytes_wordAt (source : ByteArray) (position count : Nat) :
    (Array.ofFn fun i : Fin count =>
        wordAt α source (position + i * Word.width α)).toList.flatMap wordBytes =
      bytesAt source position (count * Word.width α) := by
  rw [toList_ofFn count fun i => wordAt α source (position + i * Word.width α)]
  induction count with
  | zero => rw [Nat.zero_mul]; rfl
  | succ count ih =>
    rw [List.range_succ, List.map_append, List.flatMap_append, ih, Nat.succ_mul, bytesAt_add]
    simp [wordBytes_wordAt]

theorem takes_words (count : Nat) :
    (words α count).Takes fun taken values =>
      values.size = count ∧ taken = values.toList.flatMap wordBytes := by
  refine .of_fixed (count * Word.width α)
    (fun source position => Array.ofFn fun i : Fin count =>
      wordAt α source (position + i * Word.width α)) (fun _ _ _ => table_eq_ok) ?_ ?_
  · intro source position
    exact ⟨Array.size_ofFn, (flatMap_wordBytes_wordAt source position count).symm⟩
  · rintro taken values ⟨rfl, rfl⟩
    refine ⟨length_flatMap_of_size length_wordBytes _, fun source position hholds => ?_⟩
    exact (hholds.words rfl).symm

end Integers

/-! ## Names -/

theorem takes_prefixedName :
    prefixedName.Takes fun taken text =>
      ∃ name, name.length < 256 ∧ taken = prefixedBytes name ∧ text = Text.Lossy.decode name := by
  intro c hc text c'
  rw [prefixedName_eq_ok]
  constructor
  · rintro ⟨-, hlimit, rfl, rfl⟩
    let name := bytesAt c.source (c.pos + 1) (byteAt c.source c.pos).toNat
    have hlength : name.length = (byteAt c.source c.pos).toNat := length_bytesAt _ _ _
    have htaken : prefixedBytes name = bytesAt c.source c.pos (name.length + 1) := by
      rw [prefixedBytes, bytesAt_succ, hlength, UInt8.ofNat_toNat]
    have hinside : c.pos + (name.length + 1) ≤ c.limit := by omega
    refine ⟨_, ⟨name, hlength ▸ UInt8.toNat_lt _, rfl, rfl⟩, hinside, ?_, ?_⟩
    · rw [htaken]
      exact .of_bytesAt (Nat.le_trans hinside hc.2.2)
    · rw [length_prefixedBytes, hlength, Nat.add_right_comm, Nat.add_assoc]
  · rintro ⟨_, ⟨name, hname, rfl, rfl⟩, hlimit, hholds, rfl⟩
    have hcount : byteAt c.source c.pos = UInt8.ofNat name.length := hholds.byteAt_eq 0 (by simp)
    have hlength : (byteAt c.source c.pos).toNat = name.length := by
      rw [hcount, UInt8.toNat_ofNat', Nat.mod_eq_of_lt hname]
    have hrest : Holds c.source (c.pos + 1) name := .right (a := [UInt8.ofNat name.length]) hholds
    rw [length_prefixedBytes] at hlimit ⊢
    rw [hlength, hrest.bytesAt_eq]
    exact ⟨by omega, by omega, rfl, by rw [Nat.add_right_comm, Nat.add_assoc]⟩

theorem bytesAt_cons_eq_terminatedBytes {source : ByteArray} {position : Nat} {b : UInt8}
    {rest : List UInt8} :
    bytesAt source position ((b :: rest).length + 1) = terminatedBytes (b :: rest) ↔
      byteAt source position = b ∧
        bytesAt source (position + 1) (rest.length + 1) = terminatedBytes rest := by
  rw [List.length_cons, bytesAt_succ, terminatedBytes, List.cons_append, List.cons.injEq]
  rfl

/-- The bytes before the first zero, if there is one among those that are searched. -/
theorem findZero_eq_some_iff {source : ByteArray} {position count stop : Nat} :
    findZero source position count = some stop ↔
      ∃ name : List UInt8, 0 ∉ name ∧ name.length < count ∧ stop = position + name.length ∧
        bytesAt source position (name.length + 1) = terminatedBytes name := by
  induction count generalizing position with
  | zero => simp [findZero]
  | succ count ih =>
    have hempty : bytesAt source position 1 = [byteAt source position] := bytesAt_succ _ _ _
    rw [findZero]
    by_cases hzero : byteAt source position = 0
    · rw [if_pos hzero]
      constructor
      · intro h
        obtain rfl := Option.some.inj h
        rw [hzero] at hempty
        exact ⟨[], List.not_mem_nil, Nat.succ_pos _, rfl, hempty⟩
      · rintro ⟨name, hname, -, rfl, hbytes⟩
        cases name with
        | nil => rfl
        | cons b rest =>
          rw [bytesAt_cons_eq_terminatedBytes, hzero] at hbytes
          exact absurd (hbytes.1 ▸ List.mem_cons_self) hname
    · rw [if_neg hzero, ih]
      constructor
      · rintro ⟨name, hname, hlength, rfl, hbytes⟩
        refine ⟨byteAt source position :: name, ?_, Nat.succ_lt_succ hlength, ?_,
          bytesAt_cons_eq_terminatedBytes.2 ⟨rfl, hbytes⟩⟩
        · exact List.not_mem_cons_of_ne_of_not_mem (Ne.symm hzero) hname
        · rw [List.length_cons]
          omega
      · rintro ⟨name, hname, hlength, rfl, hbytes⟩
        cases name with
        | nil => exact absurd (List.cons.inj (hempty.symm.trans hbytes)).1 hzero
        | cons b rest =>
          refine ⟨rest, List.not_mem_of_not_mem_cons hname, Nat.lt_of_succ_lt_succ hlength, ?_,
            (bytesAt_cons_eq_terminatedBytes.1 hbytes).2⟩
          rw [List.length_cons]
          omega

theorem terminatedName_eq_ok {text : String} :
    terminatedName c = .ok text c' ↔
      ∃ stop, findZero c.source c.pos c.remaining = some stop ∧
        text = Text.Lossy.decode (bytesAt c.source c.pos (stop - c.pos)) ∧
        c' = c.moveTo (stop + 1) := by
  unfold terminatedName
  cases findZero c.source c.pos c.remaining with
  | none => simp
  | some stop => simp [Cursor.moveTo, eq_comm]

theorem takes_terminatedName :
    terminatedName.Takes fun taken text =>
      ∃ name, 0 ∉ name ∧ taken = terminatedBytes name ∧ text = Text.Lossy.decode name := by
  intro c hc text c'
  simp only [terminatedName_eq_ok, findZero_eq_some_iff]
  obtain ⟨-, hpos, hlimit⟩ := hc
  constructor
  · rintro ⟨_, ⟨name, hname, hlength, rfl, hbytes⟩, rfl, rfl⟩
    rw [Cursor.remaining] at hlength
    have hinside : c.pos + (name.length + 1) ≤ c.limit := by omega
    have hholds : Holds c.source c.pos (terminatedBytes name) := by
      rw [← hbytes]
      exact .of_bytesAt (Nat.le_trans hinside hlimit)
    refine ⟨_, ⟨name, hname, rfl, ?_⟩, ?_, hholds, ?_⟩
    · rw [Nat.add_sub_cancel_left, hholds.left.bytesAt_eq]
    · rwa [length_terminatedBytes]
    · rw [length_terminatedBytes, Nat.add_assoc]
  · rintro ⟨_, ⟨name, hname, rfl, rfl⟩, hinside, hholds, rfl⟩
    rw [length_terminatedBytes] at hinside ⊢
    have hbytes := hholds.bytesAt_eq
    rw [length_terminatedBytes] at hbytes
    refine ⟨_, ⟨name, hname, ?_, rfl, hbytes⟩, ?_, by rw [Nat.add_assoc]⟩
    · rw [Cursor.remaining]
      omega
    · rw [Nat.add_sub_cancel_left, hholds.left.bytesAt_eq]

/-! ## Failures -/

/-- A reading that fails leaves the cursor where it was. -/
def Atomic (r : Read α) : Prop :=
  ∀ c e c', r c = .error e c' → c' = c

namespace Atomic

theorem map (h : r.Atomic) (f : α → β) : (r >>= fun a => pure (f a)).Atomic := by
  intro c e c' hr
  obtain hr | ⟨a, c₁, -, hpure⟩ := bind_eq_error.1 hr
  · exact h c e c' hr
  · cases hpure

theorem seek (target : Nat) : (Read.seek target).Atomic := by
  intro c e c' hr
  unfold Read.seek at hr
  split at hr <;> cases hr
  rfl

theorem seekFrom (base : Nat) (offset : UInt32) : (Read.seekFrom base offset).Atomic := by
  intro c e c' hr
  unfold Read.seekFrom at hr
  split at hr
  case isTrue => exact seek _ c e c' hr
  case isFalse =>
    cases hr
    rfl

theorem ensure (count size : Nat) : (Read.ensure count size).Atomic := by
  intro c e c' hr
  simp only [Read.ensure] at hr
  split at hr <;> cases hr
  rfl

theorem fixed (length : Nat) (value : ByteArray → Nat → α) : (Read.fixed length value).Atomic := by
  intro c e c' hr
  unfold Read.fixed at hr
  split at hr <;> cases hr
  rfl

theorem table (count size : Nat) (item : ByteArray → Nat → α) :
    (Read.table count size item).Atomic := by
  intro c e c' hr
  obtain hensure | ⟨_, c₁, hensure, hfixed⟩ := bind_eq_error.1 hr
  · exact ensure count size c e c' hensure
  · obtain ⟨-, rfl⟩ := ensure_eq_ok.1 hensure
    exact fixed _ _ _ e c' hfixed

theorem terminatedName : Read.terminatedName.Atomic := by
  intro c e c' hr
  unfold Read.terminatedName at hr
  split at hr <;> cases hr
  rfl

end Atomic

/-- Where a name is cut off, the byte that counts its bytes has been taken. -/
theorem eq_of_prefixedName_eq_error {e : FormatError} (h : prefixedName c = .error e c') :
    c' = if c.pos < c.limit then c.moveTo (c.pos + 1) else c := by
  obtain hcount | ⟨_, c₁, hcount, hrest⟩ := bind_eq_error.1 h
  · have hnone : ¬ c.pos < c.limit := by
      intro hlt
      have hok : word UInt8 c = _ := word_eq_ok.2 ⟨hlt, rfl, rfl⟩
      rw [hok] at hcount
      cases hcount
    rw [if_neg hnone]
    exact Atomic.fixed _ _ c e c' hcount
  · obtain ⟨hlt, -, rfl⟩ := word_eq_ok.1 hcount
    rw [if_pos (show c.pos < c.limit from hlt)]
    obtain hname | ⟨_, _, -, hpure⟩ := bind_eq_error.1 hrest
    · exact Atomic.fixed _ _ _ e c' hname
    · cases hpure

end Read

end CodeView
