import CodeView.Executable.Query
import CodeView.Proofs.Resolver.Line

/-!
# Virtual addresses and code offsets

Addresses are added and subtracted with a check at each step, in one direction with a narrowing to
32 bits. All checks together leave exactly the pairs of an address and an offset whose numbers add
up without bound (`Executable.Locates`), so the two directions undo each other. Questions in
virtual addresses are questions in code offsets with a translation before or behind them, and what
was asked before does not matter.
-/

namespace CodeView

/-! ## Checked steps -/

namespace Address

variable {a b : Address} {n : UInt64}

theorem eq_iff_toNat_eq : a = b ↔ a.value.toNat = b.value.toNat := by
  rw [UInt64.toNat_inj]
  constructor
  · exact congrArg value
  · exact congrArg mk

theorem add?_eq_some_iff : a.add? n = some b ↔ b.value.toNat = a.value.toNat + n.toNat := by
  have hb : b.value.toNat < UInt64.size := b.value.toNat_lt_size
  rw [add?]
  split
  case isTrue h =>
    have hsum : (a.value + n).toNat = a.value.toNat + n.toNat := by
      rw [UInt64.toNat_add]
      exact Nat.mod_eq_of_lt h
    rw [Option.some_inj, eq_iff_toNat_eq, hsum, eq_comm]
  case isFalse h =>
    simp only [reduceCtorEq, false_iff]
    omega

theorem sub?_eq_some_iff : a.sub? n = some b ↔ a.value.toNat = b.value.toNat + n.toNat := by
  rw [sub?]
  split
  case isTrue h =>
    have hdifference : (a.value - n).toNat = a.value.toNat - n.toNat :=
      UInt64.toNat_sub_of_le _ _ h
    rw [UInt64.le_iff_toNat_le] at h
    rw [Option.some_inj, eq_iff_toNat_eq, hdifference]
    omega
  case isFalse h =>
    rw [UInt64.le_iff_toNat_le] at h
    simp only [reduceCtorEq, false_iff]
    omega

end Address

/-! ## Both directions -/

section Directions

variable {imageBase : UInt64} {baseOfCode offset : UInt32} {address : Address}

theorem codeOffset?_eq_some_iff :
    codeOffset? imageBase baseOfCode address = some offset ↔
      address.value.toNat = imageBase.toNat + baseOfCode.toNat + offset.toNat := by
  have hoffset : offset.toNat < UInt32.size := offset.toNat_lt_size
  have haddress : address.value.toNat < UInt64.size := address.value.toNat_lt_size
  have narrow (a : Address) :
      (if a.value.toNat < UInt32.size then some a.value.toUInt32 else none) = some offset ↔
        a.value.toNat = offset.toNat := by
    split
    case isTrue h =>
      rw [Option.some_inj, ← UInt32.toNat_inj, UInt64.toNat_toUInt32]
      exact iff_of_eq (congrArg (· = offset.toNat) (Nat.mod_eq_of_lt h))
    case isFalse h =>
      simp only [reduceCtorEq, false_iff]
      omega
  simp only [codeOffset?, Option.bind_eq_bind, Option.bind_eq_some_iff, narrow,
    Address.sub?_eq_some_iff, UInt32.toNat_toUInt64]
  constructor
  · rintro ⟨inImage, himage, inCode, hcode, hnarrow⟩
    omega
  · intro h
    -- what is left after each step is a number of 64 bits, since the address is
    refine ⟨⟨.ofNat (baseOfCode.toNat + offset.toNat)⟩, ?_, ⟨.ofNat offset.toNat⟩, ?_, ?_⟩
    · rw [UInt64.toNat_ofNat_of_lt' (by omega)]
      omega
    · rw [UInt64.toNat_ofNat_of_lt' (by omega), UInt64.toNat_ofNat_of_lt' (by omega)]
      omega
    · rw [UInt64.toNat_ofNat_of_lt' (by omega)]

theorem virtualAddress?_eq_some_iff :
    virtualAddress? imageBase baseOfCode offset = some address ↔
      address.value.toNat = imageBase.toNat + baseOfCode.toNat + offset.toNat := by
  have haddress : address.value.toNat < UInt64.size := address.value.toNat_lt_size
  simp only [virtualAddress?, Option.bind_eq_bind, Option.bind_eq_some_iff,
    Address.add?_eq_some_iff, UInt32.toNat_toUInt64]
  constructor
  · rintro ⟨code, hcode, hoffset⟩
    omega
  · intro h
    refine ⟨⟨.ofNat (imageBase.toNat + baseOfCode.toNat)⟩, ?_, ?_⟩
    · rw [UInt64.toNat_ofNat_of_lt' (by omega)]
    · rw [UInt64.toNat_ofNat_of_lt' (by omega)]
      exact h

end Directions

/-! ## Resolvers that have been asked before -/

namespace Resolver.Serves

variable {r : Resolver} {modules : List SourceModule}

theorem resolveAddress_eq (h : r.Serves modules) (offset : UInt32) :
    r.resolveAddress offset = (ofModules modules).resolveAddress offset := by
  rw [resolveAddress, files, h.modules_eq]
  rfl

theorem resolveLine_eq (h : r.Serves modules) (file : String) (line : UInt16) :
    (r.resolveLine file line).1 = ((ofModules modules).resolveLine file line).1 := by
  rw [h.resolveLine, (serves_ofModules modules).resolveLine]

/-- Every question has the answer of a resolver that is made for it. -/
theorem ask_eq (h : r.Serves modules) (query : Query) :
    (r.ask query).1 = ((ofModules modules).ask query).1 := by
  cases query with
  | address offset => exact congrArg Answer.location (h.resolveAddress_eq offset)
  | line file line => exact congrArg Answer.offset (h.resolveLine_eq file line)

end Resolver.Serves

namespace Executable

variable {exe : Executable}

/-- The resolver translates like the executable and answers for its source modules. -/
structure Serves (exe : Executable) (r : VirtualResolver) : Prop where
  imageBase_eq : r.imageBase = exe.imageBase
  baseOfCode_eq : r.baseOfCode = exe.baseOfCode
  resolver : r.resolver.Serves exe.info.sourceModules

theorem serves_virtualResolver (exe : Executable) : exe.Serves exe.virtualResolver :=
  ⟨rfl, rfl, Resolver.serves_ofModules _⟩

namespace Serves

variable {r : VirtualResolver}

theorem resolve_eq (h : exe.Serves r) (address : Address) :
    r.resolve address = exe.resolve address := by
  have hresolve : r.resolver.resolveAddress = exe.resolver.resolveAddress :=
    funext h.resolver.resolveAddress_eq
  rw [VirtualResolver.resolve, h.imageBase_eq, h.baseOfCode_eq, hresolve]
  rfl

theorem addressOf_eq (h : exe.Serves r) (file : String) (line : UInt16) :
    (r.addressOf file line).1 = exe.addressOf file line := by
  show (r.resolver.resolveLine file line).1.bind (CodeView.virtualAddress? r.imageBase r.baseOfCode) = _
  rw [h.imageBase_eq, h.baseOfCode_eq, h.resolver.resolveLine_eq]
  rfl

/-- One question is answered as the executable answers it, and the next one can be asked. -/
theorem ask (h : exe.Serves r) (query : VirtualQuery) :
    (r.ask query).1 = exe.ask query ∧ exe.Serves (r.ask query).2 := by
  have hresolver := h.resolver
  cases query with
  | address address => exact ⟨congrArg VirtualAnswer.location (h.resolve_eq address), h⟩
  | line file line =>
    exact ⟨congrArg VirtualAnswer.address (h.addressOf_eq file line),
      h.imageBase_eq, h.baseOfCode_eq, hresolver.indexed⟩
  | code query =>
    exact ⟨congrArg VirtualAnswer.code (hresolver.ask_eq query),
      h.imageBase_eq, h.baseOfCode_eq, hresolver.ask query⟩

theorem askAll (h : exe.Serves r) (queries : List VirtualQuery) :
    (r.askAll queries).1 = queries.map exe.ask := by
  induction queries generalizing r with
  | nil => rfl
  | cons query rest ih =>
    obtain ⟨hanswer, hserves⟩ := h.ask query
    show (r.ask query).1 :: ((r.ask query).2.askAll rest).1 = exe.ask query :: rest.map exe.ask
    rw [hanswer, ih hserves]

end Serves

/-! ## Questions in virtual addresses -/

/-- The address is that of the code offset: load address, base of the code and offset add up to it,
as numbers without bound. -/
def Locates (exe : Executable) (address : Address) (offset : UInt32) : Prop :=
  address.value.toNat = exe.imageBase.toNat + exe.baseOfCode.toNat + offset.toNat

/-- **Translation is exact.** An address and a code offset are translated into each other exactly
if they belong together, so that nothing is translated where the code would begin behind the last
address. A question about an address is one about its code offset, the address of a line is that of
its code offset, and one resolver answers any questions in any order as the executable does. -/
theorem translates (exe : Executable) :
    (∀ address offset,
      (exe.codeOffset? address = some offset ↔ exe.Locates address offset) ∧
      (exe.virtualAddress? offset = some address ↔ exe.Locates address offset)) ∧
    (UInt64.size ≤ exe.imageBase.toNat + exe.baseOfCode.toNat →
      (∀ address, exe.codeOffset? address = none) ∧
      ∀ offset, exe.virtualAddress? offset = none) ∧
    (∀ address offset, exe.Locates address offset →
      exe.resolve address = exe.resolver.resolveAddress offset) ∧
    (∀ address, (∀ offset, ¬ exe.Locates address offset) → exe.resolve address = none) ∧
    (∀ file line address, exe.addressOf file line = some address →
      (exe.resolver.resolveLine file line).1 = exe.codeOffset? address) ∧
    ∀ queries, (exe.virtualResolver.askAll queries).1 = queries.map exe.ask := by
  have hoffset (address offset) :
      exe.codeOffset? address = some offset ↔ exe.Locates address offset :=
    codeOffset?_eq_some_iff
  have haddress (address offset) :
      exe.virtualAddress? offset = some address ↔ exe.Locates address offset :=
    virtualAddress?_eq_some_iff
  have hresolve (address) :
      exe.resolve address = (exe.codeOffset? address).bind exe.resolver.resolveAddress := rfl
  refine ⟨fun address offset => ⟨hoffset address offset, haddress address offset⟩, ?_, ?_, ?_, ?_,
    (serves_virtualResolver exe).askAll⟩
  · intro hoverflow
    have hnone (address offset) : ¬ exe.Locates address offset := by
      have := address.value.toNat_lt_size
      unfold Locates
      omega
    constructor
    · intro address
      exact Option.eq_none_iff_forall_ne_some.2 fun offset h => hnone _ _ ((hoffset _ _).1 h)
    · intro offset
      exact Option.eq_none_iff_forall_ne_some.2 fun address h => hnone _ _ ((haddress _ _).1 h)
  · intro address offset hlocates
    rw [hresolve, (hoffset _ _).2 hlocates]
    rfl
  · intro address hnone
    have hmissed : exe.codeOffset? address = none :=
      Option.eq_none_iff_forall_ne_some.2 fun offset h => hnone _ ((hoffset _ _).1 h)
    rw [hresolve, hmissed]
    rfl
  · intro file line address h
    obtain ⟨offset, hline, hvirtual⟩ := Option.bind_eq_some_iff.1 h
    have hlocates : exe.Locates address offset := (haddress _ _).1 hvirtual
    rw [(hoffset _ _).2 hlocates]
    exact hline

/-- An executable whose code ends with the last address there is. -/
def highExecutable : Executable where
  imageBase := 0xffffffffffff0000
  baseOfCode := 0xf000
  info :=
    { signature := .nb09
      base := 0
      header := ⟨16, 12, 1, 0, 0⟩
      subsections := [⟨0, ⟨.sourceModule, 1, 0, 0⟩,
        .sourceModule ⟨[], [⟨"a.c", [⟨1, 0xf00, 0xffff, #[0xf00, 0xfff, 0x1000], #[1, 2, 3]⟩]⟩]⟩⟩]
      issues := [] }

theorem translates_highExecutable :
    highExecutable.Locates ⟨0xffffffffffffffff⟩ 0xfff ∧
      highExecutable.resolve ⟨0xffffffffffffffff⟩ = some ⟨"a.c", 2, 1⟩ ∧
      highExecutable.addressOf "a.c" 2 = some ⟨0xffffffffffffffff⟩ ∧
      (highExecutable.resolver.resolveLine "a.c" 2).1 =
        highExecutable.codeOffset? ⟨0xffffffffffffffff⟩ ∧
      { highExecutable with baseOfCode := 0x10000 }.codeOffset? ⟨0xffffffffffffffff⟩ = none := by
  obtain ⟨-, -, resolve, -, line, -⟩ := translates highExecutable
  obtain ⟨-, overflow, -⟩ := translates { highExecutable with baseOfCode := 0x10000 }
  have locates : highExecutable.Locates ⟨0xffffffffffffffff⟩ 0xfff := by
    unfold Locates
    decide +kernel
  have recorded : (highExecutable.resolver.resolveLine "a.c" 2).1 = some 0xfff := by
    have scan : highExecutable.resolver.scanLine "a.c" 2 = some 0xfff := by decide +kernel
    exact ((Resolver.serves_ofModules _).resolveLine_eq_scanLine _ _).trans scan
  have found : highExecutable.addressOf "a.c" 2 = some ⟨0xffffffffffffffff⟩ :=
    (congrArg (Option.bind · highExecutable.virtualAddress?) recorded).trans (by decide +kernel)
  refine ⟨locates, (resolve _ _ locates).trans (by decide +kernel), found, line _ _ _ found, ?_⟩
  exact (overflow (by decide +kernel)).1 _

end Executable

end CodeView
