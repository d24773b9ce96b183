import CodeView.Proofs.Reading

/-!
# What a reading reports

A reading of stored values fails in one way only: bytes behind the limit of its window are asked
for. `Read.Reports` says this of readings made one after the other, apart from the faults that they
look for themselves. There is one lemma a reading. It hands on where the cursor then stands and what
was read there, so that a fault can be judged by the bytes that are stored.
-/

namespace CodeView

/-- The position lies in the window; its end is allowed. -/
structure Cursor.Within (c : Cursor) (pos : Nat) : Prop where
  start : c.start ≤ pos
  limit : pos ≤ c.limit

namespace Read

variable {α β : Type} {c : Cursor} {pos : Nat} {fault : FormatError → Prop}

/-- How a reading ends in the window of a cursor. -/
inductive Ends (c : Cursor) (fault : FormatError → Prop) :
    EStateM.Result FormatError Cursor α → Prop
  | ok (a : α) {pos : Nat} (within : c.Within pos) : Ends c fault (.ok a (c.moveTo pos))
  /-- bytes behind the limit are asked for -/
  | crosses {position length : Nat} {c' : Cursor} (start : c.start ≤ position)
      (limit : c.limit < position + length) :
      Ends c fault (.error (.outOfBounds position length c.limit) c')
  /-- an offset leads to a position that cannot be named -/
  | nameless {base : Nat} {offset : UInt32} {c' : Cursor} (within : c.Within base)
      (far : Cursor.maxPosition < base + offset.toNat) :
      Ends c fault (.error (.outOfBounds base 0 c.limit) c')
  | fault {e : FormatError} {c' : Cursor} (h : fault e) : Ends c fault (.error e c')

/-- From a position of the window on, `r` ends like that. -/
def Reports (c : Cursor) (pos : Nat) (fault : FormatError → Prop) (r : Read α) : Prop :=
  c.Within pos → Ends c fault (r (c.moveTo pos))

namespace Reports

/-! ## Sequences -/

theorem pure (a : α) : Reports c pos fault (Pure.pure a) :=
  fun hpos => .ok a hpos

theorem throw {e : FormatError} (h : fault e) : Reports c pos fault (throw e : Read α) :=
  fun _ => .fault h

theorem throw_bind {e : FormatError} {k : α → Read β} (h : fault e) :
    Reports c pos fault (MonadExcept.throw e >>= k) :=
  fun _ => .fault h

theorem check {x : Except FormatError α} (h : ∀ e, x = .error e → fault e) :
    Reports c pos fault (Read.check x) := by
  cases x with
  | ok a => exact pure a
  | error e => exact throw (h e rfl)

theorem ite {p : Prop} [Decidable p] {r s : Read α} (h : p → Reports c pos fault r)
    (h' : ¬ p → Reports c pos fault s) : Reports c pos fault (if p then r else s) := by
  split
  case isTrue hp => exact h hp
  case isFalse hp => exact h' hp

/-- What follows a reading may rely on how that has succeeded. -/
theorem bind_of_ok {r : Read α} {k : α → Read β} (h : Reports c pos fault r)
    (hk : ∀ a pos', r (c.moveTo pos) = .ok a (c.moveTo pos') → Reports c pos' fault (k a)) :
    Reports c pos fault (r >>= k) := by
  intro hpos
  have first := h hpos
  show Ends c fault (EStateM.bind r k (c.moveTo pos))
  unfold EStateM.bind
  generalize hr : r (c.moveTo pos) = x at first ⊢
  cases first with
  | ok a hpos' => exact hk a _ hr hpos'
  | crosses hstart hlimit => exact .crosses hstart hlimit
  | nameless hbase hfar => exact .nameless hbase hfar
  | fault he => exact .fault he

theorem bind {r : Read α} {k : α → Read β} (h : Reports c pos fault r)
    (hk : ∀ a pos', Reports c pos' fault (k a)) : Reports c pos fault (r >>= k) :=
  h.bind_of_ok fun a pos' _ => hk a pos'

/-- A reading that can succeed with one value and at one position only hands on both. -/
theorem bind_at {r : Read α} {k : α → Read β} {fits : Prop} {value : α} {next : Nat}
    (h : Reports c pos fault r)
    (hr : ∀ a c', r (c.moveTo pos) = .ok a c' → fits ∧ a = value ∧ c' = c.moveTo next)
    (hk : fits → Reports c next fault (k value)) : Reports c pos fault (r >>= k) := by
  refine h.bind_of_ok fun a pos' hrun => ?_
  obtain ⟨hfits, rfl, hnext⟩ := hr a _ hrun
  obtain rfl : pos' = next := congrArg Cursor.pos hnext
  exact hk hfits

theorem mapM {items : List α} {r : α → Read β}
    (h : ∀ item ∈ items, ∀ pos, Reports c pos fault (r item)) (pos : Nat) :
    Reports c pos fault (items.mapM r) := by
  induction items generalizing pos with
  | nil => exact pure []
  | cons item rest ih =>
    rw [List.mapM_cons]
    refine (h item List.mem_cons_self pos).bind fun _ pos' => ?_
    exact (ih (fun i hi => h i (List.mem_cons_of_mem _ hi)) pos').bind fun _ _ => pure _

theorem position_bind {k : Nat → Read β} (hk : Reports c pos fault (k pos)) :
    Reports c pos fault (position >>= k) :=
  hk

theorem remaining_bind {k : Nat → Read β} (hk : Reports c pos fault (k (c.limit - pos))) :
    Reports c pos fault (remaining >>= k) :=
  hk

theorem get_bind {k : Cursor → Read β} (hk : Reports c pos fault (k (c.moveTo pos))) :
    Reports c pos fault (MonadState.get >>= k) :=
  hk

/-! ## Single readings -/

theorem seek {target : Nat} (hstart : c.start ≤ target) :
    Reports c pos fault (Read.seek target) := by
  intro hpos
  show Ends c fault (if c.start ≤ target ∧ target ≤ c.limit then _ else _)
  by_cases hlimit : target ≤ c.limit
  · rw [if_pos ⟨hstart, hlimit⟩]
    exact .ok () ⟨hstart, hlimit⟩
  · rw [if_neg fun h => hlimit h.2]
    exact .crosses hstart (by omega)

theorem seekFrom {base : Nat} (hbase : c.Within base) (offset : UInt32) :
    Reports c pos fault (Read.seekFrom base offset) := by
  intro hpos
  show Ends c fault (if base + offset.toNat ≤ Cursor.maxPosition then _ else _)
  by_cases hname : base + offset.toNat ≤ Cursor.maxPosition
  · rw [if_pos hname]
    exact seek (Nat.le_add_right_of_le hbase.start) hpos
  · rw [if_neg hname]
    exact .nameless hbase (Nat.lt_of_not_le hname)

theorem ensure (count size : Nat) : Reports c pos fault (Read.ensure count size) := by
  intro hpos
  have hlimit := hpos.limit
  show Ends c fault (if min (count * size) Cursor.maxPosition ≤ c.limit - pos then _ else _)
  by_cases hroom : min (count * size) Cursor.maxPosition ≤ c.limit - pos
  · rw [if_pos hroom]
    exact .ok () hpos
  · rw [if_neg hroom]
    exact .crosses hpos.start (by rw [Cursor.pos_moveTo]; omega)

theorem fixed (length : Nat) (value : ByteArray → Nat → α) :
    Reports c pos fault (Read.fixed length value) := by
  intro hpos
  show Ends c fault (if pos + length ≤ c.limit then _ else _)
  by_cases hfit : pos + length ≤ c.limit
  · rw [if_pos hfit]
    exact .ok _ ⟨Nat.le_add_right_of_le hpos.start, hfit⟩
  · rw [if_neg hfit]
    exact .crosses hpos.start (by rw [Cursor.pos_moveTo]; omega)

theorem word (α : Type) [Word α] : Reports c pos fault (Read.word α) :=
  fixed _ _

theorem table (count size : Nat) (item : ByteArray → Nat → α) :
    Reports c pos fault (Read.table count size item) :=
  (ensure count size).bind fun _ _ => fixed _ _

theorem prefixedName : Reports c pos fault Read.prefixedName :=
  (word UInt8).bind fun _ _ => (fixed _ _).bind fun _ _ => pure _

theorem terminatedName : Reports c pos fault Read.terminatedName := by
  intro hpos
  have hstart := hpos.start
  have hlimit := hpos.limit
  have hleft : (c.moveTo pos).remaining = c.limit - pos := rfl
  unfold Read.terminatedName
  rw [hleft]
  cases hzero : findZero (c.moveTo pos).source (c.moveTo pos).pos (c.limit - pos) with
  | none => exact .crosses hstart (by rw [Cursor.pos_moveTo]; omega)
  | some stop =>
    obtain ⟨hfrom, hto⟩ : pos ≤ stop ∧ stop < pos + (c.limit - pos) := bounds_of_findZero hzero
    exact .ok _ ⟨by omega, by omega⟩

/-! ## Single readings before others -/

theorem seek_bind {target : Nat} {k : Unit → Read β} (hstart : c.start ≤ target)
    (hk : target ≤ c.limit → Reports c target fault (k ())) :
    Reports c pos fault (Read.seek target >>= k) := by
  refine (seek hstart).bind_at (fun _ _ h => ?_) hk
  obtain ⟨-, hlimit, hnext⟩ := seek_eq_ok.1 h
  exact ⟨hlimit, rfl, hnext⟩

theorem seekFrom_bind {base : Nat} {offset : UInt32} {k : Unit → Read β} (hbase : c.Within base)
    (hk : base + offset.toNat ≤ c.limit → Reports c (base + offset.toNat) fault (k ())) :
    Reports c pos fault (Read.seekFrom base offset >>= k) := by
  refine (seekFrom hbase offset).bind_at (fun _ _ h => ?_) hk
  obtain ⟨-, -, hlimit, hnext⟩ := seekFrom_eq_ok.1 h
  exact ⟨hlimit, rfl, hnext⟩

theorem ensure_bind {count size : Nat} {k : Unit → Read β}
    (hk : Reports c pos fault (k ())) : Reports c pos fault (Read.ensure count size >>= k) := by
  refine (ensure count size).bind_at (fun _ _ h => ?_) fun _ : True => hk
  exact ⟨trivial, rfl, (ensure_eq_ok.1 h).2⟩

theorem word_bind [Word α] {k : α → Read β}
    (hk : pos + Word.width α ≤ c.limit →
      Reports c (pos + Word.width α) fault (k (wordAt α c.source pos))) :
    Reports c pos fault (Read.word α >>= k) :=
  (word α).bind_at (fun _ _ => word_eq_ok.1) hk

theorem table_bind {count size : Nat} {item : ByteArray → Nat → α} {k : Array α → Read β}
    (hk : pos + count * size ≤ c.limit → Reports c (pos + count * size) fault
      (k (Array.ofFn fun i : Fin count => item c.source (pos + i * size)))) :
    Reports c pos fault (Read.table count size item >>= k) :=
  (table count size item).bind_at (fun _ _ => table_eq_ok.1) hk

theorem words_bind [Word α] {count : Nat} {k : Array α → Read β}
    (hk : pos + count * Word.width α ≤ c.limit → Reports c (pos + count * Word.width α) fault
      (k (Array.ofFn fun i : Fin count => wordAt α c.source (pos + i * Word.width α)))) :
    Reports c pos fault (Read.words α count >>= k) :=
  table_bind hk

/-- A reading that looks for no fault of its own fails in one way only. -/
theorem outOfBounds {r : Read α} (h : Reports c c.pos (fun _ => False) r) (hc : c.Inside)
    (hnone : ¬ ∃ a c', r c = .ok a c') :
    ∃ position length c', r c = .error (.outOfBounds position length c.limit) c' := by
  have hends : Ends c (fun _ => False) (r c) := h ⟨hc.1, hc.2.1⟩
  generalize r c = x at hends hnone ⊢
  cases hends with
  | ok a => exact absurd ⟨a, _, rfl⟩ hnone
  | crosses => exact ⟨_, _, _, rfl⟩
  | nameless => exact ⟨_, _, _, rfl⟩
  | fault he => exact he.elim

end Reports

end Read

end CodeView
