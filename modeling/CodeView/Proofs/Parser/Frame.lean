import CodeView.Parser
import CodeView.Proofs.Directory

/-!
# The frame of a blob

Before any content is decoded the parser reads a frame: the signature, the offset of the
directory, and the directory. The reading is a list of eight checks (`Parser.readFrame_eq`): where
all of them hold the frame is the one that is stored, and otherwise the first one that does not
hold is reported. `Parser.Sound` says the same without an order.
-/

namespace CodeView

theorem Signature.ofBytes?_eq_some_iff {found : Vector UInt8 4} {signature : Signature} :
    ofBytes? found = some signature ↔ found = signature.bytes := by
  by_cases h09 : found = nb09.bytes
  · subst h09
    cases signature <;> decide
  by_cases h11 : found = nb11.bytes
  · subst h11
    cases signature <;> decide
  cases signature <;> simp [ofBytes?, h09, h11, eq_comm]

namespace Parser

variable {source : ByteArray} {base : Nat}

/-- The four bytes at a position. -/
def signatureAt (source : ByteArray) (base : Nat) : Vector UInt8 4 :=
  Vector.ofFn fun i : Fin 4 => byteAt source (base + i)

theorem signatureAt_congr {source target : ByteArray} {p q : Nat}
    (h : SameBytes source target p q 4) : signatureAt target q = signatureAt source p := by
  unfold signatureAt
  congr 1
  funext i
  exact h i i.isLt

/-- The signature at a position. Where there is none the answer does not count. -/
def signatureOf (source : ByteArray) (base : Nat) : Signature :=
  (Signature.ofBytes? (signatureAt source base)).getD .nb09

/-- Where the directory of the blob at a position lies. -/
def directoryPlace (source : ByteArray) (base : Nat) : Nat :=
  base + (wordAt UInt32 source (base + 4)).toNat

/-! ## Signature and offset -/

theorem guard_bind {α β : Type} {p : Prop} [Decidable p] {e : FormatError}
    {k : α → Except FormatError β} {x : Except FormatError β} :
    (if p then throw e >>= k else x) = if p then .error e else x := rfl

theorem ok_bind {α β : Type} {a : α} {k : α → Except FormatError β} :
    (Except.ok a >>= k) = k a := rfl

/-- The checks of the header at a position, in the order in which they are made. -/
def headerChecks (source : ByteArray) (base : Nat) : List Check :=
  [⟨base ≤ source.size, .truncated "CodeView header" 0 0⟩,
    ⟨base + 4 ≤ source.size, .truncated "CodeView signature" 4 (source.size - base)⟩,
    ⟨(Signature.ofBytes? (signatureAt source base)).isSome,
      .badSignature (signatureAt source base) base⟩,
    ⟨base + 8 ≤ source.size, .truncated "CodeView header" 8 (source.size - base)⟩]

theorem readHeader_eq :
    readHeader source base =
      Check.run (signatureOf source base, wordAt UInt32 source (base + 4))
        (headerChecks source base) := by
  simp only [readHeader, Cursor.window_rest, guard_bind, headerChecks, Check.run,
    decide_eq_true_eq]
  have hfound : (Vector.ofFn fun i : Fin 4 => byteAt source (base + i)) =
      signatureAt source base := rfl
  by_cases hbase : base ≤ source.size
  · rw [if_pos hbase, if_pos hbase]
    show (if source.size - base < 4 then _ else _) = _
    by_cases hfour : base + 4 ≤ source.size
    · rw [if_pos hfour, if_neg (by omega), hfound, signatureOf]
      cases Signature.ofBytes? (signatureAt source base) with
      | none => rfl
      | some signature =>
        show (if source.size - base < 8 then _ else _) = if base + 8 ≤ source.size then _ else _
        by_cases height : base + 8 ≤ source.size
        · rw [if_pos height, if_neg (by omega)]
          rfl
        · rw [if_neg height, if_pos (by omega)]
          rfl
    · rw [if_neg hfour, if_pos (by omega)]
      rfl
  · rw [if_neg hbase, if_neg hbase]
    rfl

/-! ## The directory -/

theorem readDirectory_eq {offset : UInt32} :
    readDirectory source base offset =
      Check.run (Directory.stored source (base + offset.toNat))
        (Directory.checks source source.size (base + offset.toNat)) := by
  generalize hstart : base + offset.toNat = start
  simp only [readDirectory, hstart, Cursor.window_rest, guard_bind]
  by_cases hroom : source.size < start
  -- a directory that begins behind the source is cut off like one that ends behind it
  · have hnone : source.size - start = 0 := by omega
    have hhead : ¬ start + DirectoryHeader.width ≤ source.size := by omega
    rw [if_pos hroom]
    simp [Directory.checks, Check.run, hhead, hnone]
  · have hread := Directory.result_read ⟨source, start, source.size, start⟩
    rw [if_neg hroom, if_pos (by omega), ok_bind, ← hread, Read.result]
    cases Directory.read ⟨source, start, source.size, start⟩ <;> rfl

/-! ## Both -/

/-- The checks of a frame, in the order in which they are made. -/
def checks (source : ByteArray) (base : Nat) : List Check :=
  headerChecks source base ++
    Directory.checks source source.size (directoryPlace source base)

theorem readFrame_eq :
    readFrame source base =
      Check.run (signatureOf source base, Directory.stored source (directoryPlace source base))
        (checks source base) := by
  have parts : readFrame source base = (readHeader source base).bind fun header =>
      (readDirectory source base header.2).map fun directory => (header.1, directory) := by
    rw [readFrame]
    cases readHeader source base with
    | error e => rfl
    | ok header =>
      show (readDirectory source base header.2).bind _ = (readDirectory source base header.2).map _
      cases readDirectory source base header.2 <;> rfl
  simp only [parts, readHeader_eq, readDirectory_eq, Check.run_map]
  exact Check.run_bind_run
    (fun header : Signature × UInt32 =>
      (header.1, Directory.stored source (base + header.2.toNat)))
    (fun header => Directory.checks source source.size (base + header.2.toNat)) _

/-! ## Sound frames -/

/-- The blob at a position has a known signature, and its header and its directory lie in the
source and are those of the layout. -/
structure Sound (source : ByteArray) (base : Nat) : Prop where
  head : base + 8 ≤ source.size
  signature : signatureAt source base = Signature.nb09.bytes ∨
    signatureAt source base = Signature.nb11.bytes
  directory : Directory.Fits source source.size (directoryPlace source base)

theorem isSome_ofBytes?_iff {found : Vector UInt8 4} :
    (Signature.ofBytes? found).isSome = true ↔
      found = Signature.nb09.bytes ∨ found = Signature.nb11.bytes := by
  simp only [Option.isSome_iff_exists, Signature.ofBytes?_eq_some_iff]
  constructor
  · rintro ⟨_ | _, h⟩
    · exact .inl h
    · exact .inr h
  · rintro (h | h)
    · exact ⟨_, h⟩
    · exact ⟨_, h⟩

theorem holds_checks_iff :
    (∀ check ∈ checks source base, check.holds = true) ↔ Sound source base := by
  simp only [checks, List.forall_mem_append, Directory.holds_checks_iff, headerChecks,
    List.forall_mem_cons, decide_eq_true_eq, isSome_ofBytes?_iff, List.not_mem_nil,
    false_implies, implies_true, and_true]
  constructor
  · rintro ⟨⟨-, -, signature, head⟩, directory⟩
    exact ⟨head, signature, directory⟩
  · rintro ⟨head, signature, directory⟩
    exact ⟨⟨by omega, by omega, signature, head⟩, directory⟩

theorem Sound.bytes_signatureOf (h : Sound source base) :
    (signatureOf source base).bytes = signatureAt source base := by
  obtain h09 | h11 := h.signature
  · rw [signatureOf, h09]
    rfl
  · rw [signatureOf, h11]
    rfl

end Parser

end CodeView
