import CodeView.Proofs.Bytes
import Mathlib.Algebra.BigOperators.Group.List.Basic
import Mathlib.Algebra.GroupWithZero.Nat

/-!
# Bytes where they were written

`Holds source position bytes` says that a source has certain bytes from a position on. What was
written in parts is held in parts, each where those before it end, and an integer is read back
from the bytes that store it.
-/

namespace CodeView

/-! ## Places of parts -/

/-- A part begins where those before it end. -/
theorem getElem_starts (start : Nat) (lengths : List Nat) (i : Nat)
    (h : i < (starts start lengths).length) :
    (starts start lengths)[i] = start + (lengths.take i).sum := by
  induction lengths generalizing start i with
  | nil => simp [starts] at h
  | cons length rest ih =>
    cases i with
    | zero => simp [starts]
    | succ i =>
      simp only [starts, List.getElem_cons_succ, List.take_succ_cons, List.sum_cons]
      rw [ih]
      omega

/-- Every part ends in time. -/
theorem sum_take_add_le (lengths : List Nat) (i : Nat) (h : i < lengths.length) :
    (lengths.take i).sum + lengths[i] ≤ lengths.sum := by
  rw [← List.sum_take_add_sum_drop lengths i, List.drop_eq_getElem_cons h, List.sum_cons]
  omega

/-- Items of one size take a multiple of it. -/
theorem length_flatMap_of_size {α : Type} {encode : α → List UInt8} {size : Nat}
    (hsize : ∀ a, (encode a).length = size) (items : List α) :
    (items.flatMap encode).length = items.length * size := by
  induction items with
  | nil => simp
  | cons a rest ih =>
    rw [List.flatMap_cons, List.length_append, hsize, ih, List.length_cons, Nat.succ_mul]
    omega

@[simp] theorem length_flatMap_wordBytes {α : Type} [Word α] (values : List α) :
    (values.flatMap wordBytes).length = values.length * Word.width α :=
  length_flatMap_of_size length_wordBytes values

@[simp] theorem length_prefixedBytes (bytes : List UInt8) :
    (prefixedBytes bytes).length = bytes.length + 1 :=
  rfl

@[simp] theorem length_terminatedBytes (bytes : List UInt8) :
    (terminatedBytes bytes).length = bytes.length + 1 := by
  simp [terminatedBytes]

/-! ## Integers -/

theorem toNat_count {n : Nat} (h : n ≤ 65535) : (UInt16.ofNat n).toNat = n :=
  UInt16.toNat_ofNat_of_lt' (Nat.lt_succ_of_le h)

/-- The number that bytes store, least significant byte first. -/
def natOf : List UInt8 → Nat
  | [] => 0
  | b :: rest => b.toNat + 256 * natOf rest

/-- What bytes store is a number of as many digits. -/
theorem natAt_lt (source : ByteArray) (position width : Nat) :
    natAt source position width < 256 ^ width := by
  induction width generalizing position with
  | zero => exact Nat.one_pos
  | succ width ih =>
    have hfirst := (byteAt source position).toNat_lt
    have hrest := ih (position + 1)
    rw [natAt, Nat.pow_succ]
    omega

theorem natOf_natBytes {n width : Nat} (h : n < 256 ^ width) : natOf (natBytes n width) = n := by
  induction width generalizing n with
  | zero =>
    rw [Nat.pow_zero] at h
    exact (Nat.lt_one_iff.1 h).symm
  | succ width ih =>
    rw [Nat.pow_succ] at h
    rw [natBytes, natOf, ih (by omega), UInt8.toNat_ofNat']
    omega

/-- A type of integers whose bytes store each of its values. -/
class LawfulWord (α : Type) [Word α] : Prop where
  ofNat_natOf : ∀ value : α, Word.ofNat (natOf (wordBytes value)) = value

/-- A type of integers with one value for each number of as many digits as it has bytes. -/
class ExactWord (α : Type) [Word α] : Prop where
  ofNat_toNat : ∀ value : α, Word.ofNat (Word.toNat value) = value
  toNat_ofNat : ∀ n, Word.toNat (Word.ofNat n : α) = n % 256 ^ Word.width α

instance : ExactWord UInt8 := ⟨fun _ => UInt8.ofNat_toNat, fun _ => UInt8.toNat_ofNat'⟩
instance : ExactWord UInt16 := ⟨fun _ => UInt16.ofNat_toNat, fun _ => UInt16.toNat_ofNat'⟩
instance : ExactWord UInt32 := ⟨fun _ => UInt32.ofNat_toNat, fun _ => UInt32.toNat_ofNat'⟩
instance : ExactWord UInt64 := ⟨fun _ => UInt64.ofNat_toNat, fun _ => UInt64.toNat_ofNat'⟩

instance {α : Type} [Word α] [ExactWord α] : LawfulWord α where
  ofNat_natOf value := by
    have hlt : Word.toNat value < 256 ^ Word.width α := by
      rw [← ExactWord.ofNat_toNat value, ExactWord.toNat_ofNat]
      exact Nat.mod_lt _ (Nat.pow_pos (by decide))
    rw [wordBytes, natOf_natBytes hlt, ExactWord.ofNat_toNat]

/-- A stored integer is stored by the bytes that are there. -/
theorem wordBytes_wordAt {α : Type} [Word α] [ExactWord α] (source : ByteArray) (position : Nat) :
    wordBytes (wordAt α source position) = bytesAt source position (Word.width α) := by
  rw [wordBytes, wordAt, ExactWord.toNat_ofNat, Nat.mod_eq_of_lt (natAt_lt _ _ _), natBytes_natAt]

/-! ## Holding bytes -/

/-- The bytes lie in the source from a position on. -/
structure Holds (source : ByteArray) (position : Nat) (bytes : List UInt8) : Prop where
  within : position + bytes.length ≤ source.size
  byteAt_eq : ∀ i (h : i < bytes.length), byteAt source (position + i) = bytes[i]

namespace Holds

variable {source : ByteArray} {position : Nat}

theorem toByteArray (bytes : List UInt8) : Holds bytes.toByteArray 0 bytes := by
  constructor
  · simp
  · intro i h
    simp [byteAt, h]

theorem of_bytesAt {length : Nat} (h : position + length ≤ source.size) :
    Holds source position (bytesAt source position length) := by
  constructor
  · rwa [length_bytesAt]
  · intro i hi
    simp [bytesAt]

theorem left {a b : List UInt8} (h : Holds source position (a ++ b)) :
    Holds source position a := by
  have hlength : (a ++ b).length = a.length + b.length := List.length_append
  constructor
  · have := h.within
    omega
  · intro i hi
    rw [h.byteAt_eq i (by omega), List.getElem_append_left hi]

theorem right {a b : List UInt8} (h : Holds source position (a ++ b)) :
    Holds source (position + a.length) b := by
  have hlength : (a ++ b).length = a.length + b.length := List.length_append
  constructor
  · have := h.within
    omega
  · intro i hi
    rw [Nat.add_assoc, h.byteAt_eq (a.length + i) (by omega), List.getElem_append_right (by omega)]
    congr 1
    omega

theorem bytesAt_eq {bytes : List UInt8} (h : Holds source position bytes) :
    bytesAt source position bytes.length = bytes := by
  apply List.ext_getElem
  · simp
  · intro i hi hi'
    simp [bytesAt, h.byteAt_eq i hi']

/-- Items in a row lie one behind the other. -/
theorem flatMap {α : Type} {items : List α} {encode : α → List UInt8}
    (h : Holds source position (items.flatMap encode)) (i : Nat) (hi : i < items.length) :
    Holds source (position + ((items.take i).flatMap encode).length) (encode items[i]) := by
  have hsplit : items.flatMap encode = (items.take i).flatMap encode ++
      (encode items[i] ++ (items.drop (i + 1)).flatMap encode) := by
    rw [← List.flatMap_cons, ← List.drop_eq_getElem_cons hi, ← List.flatMap_append,
      List.take_append_drop]
  rw [hsplit] at h
  exact h.right.left

/-- Items of one size lie at multiples of it. -/
theorem item {α : Type} {items : List α} {encode : α → List UInt8} {size : Nat}
    (h : Holds source position (items.flatMap encode)) (hsize : ∀ a, (encode a).length = size)
    (i : Nat) (hi : i < items.length) :
    Holds source (position + i * size) (encode items[i]) := by
  have hitem := h.flatMap i hi
  rwa [length_flatMap_of_size hsize, List.length_take_of_le (Nat.le_of_lt hi)] at hitem

/-- Parts of any size lie where `starts` places them. -/
theorem part {parts : List (List UInt8)} (h : Holds source position parts.flatten) (i : Nat)
    (hi : i < parts.length) :
    Holds source (position + ((parts.map List.length).take i).sum) parts[i] := by
  rw [List.flatten_eq_flatMap] at h
  have hpart := h.flatMap i hi
  rwa [← List.flatten_eq_flatMap, List.length_flatten, List.map_take] at hpart

theorem natAt_eq {bytes : List UInt8} (h : Holds source position bytes) :
    natAt source position bytes.length = natOf bytes := by
  induction bytes generalizing position with
  | nil => rfl
  | cons b rest ih =>
    have hfirst : byteAt source position = b := h.byteAt_eq 0 (by simp)
    have hrest : Holds source (position + 1) rest := right (a := [b]) h
    simp only [List.length_cons, natAt, natOf, hfirst, ih hrest]

theorem wordAt_eq {α : Type} [Word α] [LawfulWord α] {value : α}
    (h : Holds source position (wordBytes value)) : wordAt α source position = value := by
  have hnat := h.natAt_eq
  rw [length_wordBytes] at hnat
  rw [wordAt, hnat, LawfulWord.ofNat_natOf]

/-- An array of integers is read back from the bytes that store them in order. -/
theorem words {α : Type} [Word α] [LawfulWord α] {values : Array α}
    (h : Holds source position (values.toList.flatMap wordBytes)) {count : Nat}
    (hcount : count = values.size) :
    Array.ofFn (fun i : Fin count => wordAt α source (position + i * Word.width α)) = values := by
  subst hcount
  apply Array.ext
  · simp
  · intro i hi hi'
    have hword := h.item length_wordBytes i (by simpa using hi')
    rw [Array.getElem_toList] at hword
    rw [Array.getElem_ofFn, hword.wordAt_eq]

end Holds

end CodeView
