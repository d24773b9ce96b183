import CodeView.Bytes

/-!
# Bytes in their surroundings

What is stored at a position depends on the bytes there and on nothing else: where two sources
hold the same bytes, each at a position of its own, they hold the same integers and names.
-/

namespace CodeView

theorem byteAt_append_left {a b : ByteArray} {i : Nat} (h : i < a.size) :
    byteAt (a ++ b) i = byteAt a i := by
  have h' : i < (a ++ b).size := by
    rw [ByteArray.size_append]
    omega
  simp only [byteAt, h, h', dif_pos, ByteArray.getElem_append_left h]

theorem byteAt_append_right (a b : ByteArray) (i : Nat) :
    byteAt (a ++ b) (a.size + i) = byteAt b i := by
  by_cases h : i < b.size
  · have h' : a.size + i < (a ++ b).size := by
      rw [ByteArray.size_append]
      omega
    simp only [byteAt, h, h', dif_pos]
    rw [ByteArray.getElem_append_right (Nat.le_add_right _ _)]
    congr 1
    omega
  · have h' : ¬ a.size + i < (a ++ b).size := by
      rw [ByteArray.size_append]
      omega
    simp only [byteAt, h, h', dif_neg, not_false_eq_true]

@[simp] theorem width_uint8 : Word.width UInt8 = 1 := rfl

@[simp] theorem width_uint16 : Word.width UInt16 = 2 := rfl

@[simp] theorem width_uint32 : Word.width UInt32 = 4 := rfl

@[simp] theorem wordAt_uint8 (source : ByteArray) (position : Nat) :
    wordAt UInt8 source position = byteAt source position := by
  show UInt8.ofNat ((byteAt source position).toNat + 256 * 0) = byteAt source position
  simp

/-! ## Bytes in a row -/

theorem bytesAt_succ (source : ByteArray) (position n : Nat) :
    bytesAt source position (n + 1) =
      byteAt source position :: bytesAt source (position + 1) n := by
  rw [bytesAt, List.ofFn_succ, bytesAt]
  simp [Nat.add_comm, Nat.add_left_comm]

theorem bytesAt_add (source : ByteArray) (position m n : Nat) :
    bytesAt source position (m + n) =
      bytesAt source position m ++ bytesAt source (position + m) n := by
  induction m generalizing position with
  | zero =>
    rw [Nat.zero_add]
    rfl
  | succ m ih =>
    rw [Nat.succ_add, bytesAt_succ, bytesAt_succ, ih, List.cons_append, Nat.add_assoc position,
      Nat.add_comm 1]

/-- A stored number is stored by the bytes that are there. -/
theorem natBytes_natAt (source : ByteArray) (position width : Nat) :
    natBytes (natAt source position width) width = bytesAt source position width := by
  induction width generalizing position with
  | zero => rfl
  | succ width ih =>
    have hbyte := (byteAt source position).toNat_lt
    have hfirst : UInt8.ofNat (natAt source position (width + 1)) = byteAt source position := by
      apply UInt8.toNat_inj.1
      rw [UInt8.toNat_ofNat', natAt]
      omega
    have hrest : natAt source position (width + 1) / 256 = natAt source (position + 1) width := by
      rw [natAt]
      omega
    rw [natBytes, hfirst, hrest, ih, bytesAt_succ]

/-! ## Equal bytes hold equal values -/

section Congruence

variable {source target : ByteArray} {p q : Nat}

theorem natAt_congr {width : Nat}
    (h : ∀ i < width, byteAt target (q + i) = byteAt source (p + i)) :
    natAt target q width = natAt source p width := by
  induction width generalizing p q with
  | zero => rfl
  | succ width ih =>
    have first : byteAt target q = byteAt source p := h 0 (by omega)
    have rest : natAt target (q + 1) width = natAt source (p + 1) width := by
      apply ih
      intro i hi
      have := h (i + 1) (by omega)
      rwa [show q + (i + 1) = q + 1 + i from by omega,
        show p + (i + 1) = p + 1 + i from by omega] at this
    simp only [natAt, first, rest]

theorem wordAt_congr (α : Type) [Word α]
    (h : ∀ i < Word.width α, byteAt target (q + i) = byteAt source (p + i)) :
    wordAt α target q = wordAt α source p := by
  rw [wordAt, wordAt, natAt_congr h]

theorem bytesAt_congr {length : Nat}
    (h : ∀ i < length, byteAt target (q + i) = byteAt source (p + i)) :
    bytesAt target q length = bytesAt source p length := by
  rw [bytesAt, bytesAt]
  congr 1
  funext i
  exact h i i.isLt

end Congruence

/-! ## The same bytes at two places -/

/-- What `source` holds from `p` on, `target` holds from `q` on, for `length` bytes. -/
def SameBytes (source target : ByteArray) (p q length : Nat) : Prop :=
  ∀ i < length, byteAt target (q + i) = byteAt source (p + i)

namespace SameBytes

variable {source target : ByteArray} {p q length : Nat}

instance : Decidable (SameBytes source target p q length) :=
  inferInstanceAs (Decidable (∀ i < length, _))

theorem part (h : SameBytes source target p q length) (skip : Nat) {count : Nat}
    (hcount : skip + count ≤ length) :
    SameBytes source target (p + skip) (q + skip) count := by
  intro i hi
  rw [Nat.add_assoc, Nat.add_assoc]
  exact h (skip + i) (by omega)

theorem wordAt_eq (h : SameBytes source target p q length) (α : Type) [Word α] (skip : Nat)
    (hskip : skip + Word.width α ≤ length) :
    wordAt α target (q + skip) = wordAt α source (p + skip) :=
  wordAt_congr α (h.part skip hskip)

theorem append_left {a : ByteArray} (b : ByteArray) (h : p + length ≤ a.size) :
    SameBytes a (a ++ b) p p length := by
  intro i hi
  exact byteAt_append_left (by omega)

theorem append_right (a b : ByteArray) (p length : Nat) :
    SameBytes b (a ++ b) p (p + a.size) length := by
  intro i _
  rw [Nat.add_comm p, Nat.add_assoc]
  exact byteAt_append_right a b (p + i)

/-- A part that is cut out holds what the whole holds there. -/
theorem extract (h : p + length ≤ source.size) :
    SameBytes source (source.extract p (p + length)) p 0 length := by
  intro i hi
  have hwhole : p + i < source.size := by omega
  have hpart : i < (source.extract p (p + length)).size := by
    rw [ByteArray.size_extract]
    omega
  simp only [byteAt, Nat.zero_add, hpart, hwhole, dif_pos, ByteArray.getElem_extract]

end SameBytes

end CodeView
