import CodeView.Proofs.Reading
import CodeView.SourceModule.Read

/-!
# Source modules read without notes

The reader of source modules notes the tables that it reaches. The notes decide nothing:
`SourceModule.read_eq_readPlain` says that reading is the same computation on the cursor alone,
so that what is known of plain readings holds of it.
-/

namespace CodeView

namespace SourceModule

namespace WalkM

variable {α β : Type}

/-- The result of a plain reading, with landmarks beside the cursor. -/
def noted (passed : Array Landmark) :
    EStateM.Result FormatError Cursor α → EStateM.Result FormatError Walk α
  | .ok a c => .ok a ⟨c, passed⟩
  | .error e c => .error e ⟨c, passed⟩

/-- Apart from its notes, a walk does what a plain reading does. -/
def Erases (w : WalkM α) (r : Read α) : Prop :=
  ∀ c passed, ∃ passed', w ⟨c, passed⟩ = noted passed' (r c)

namespace Erases

theorem lift (r : Read α) : Erases (liftM r : WalkM α) r := by
  intro c passed
  refine ⟨passed, ?_⟩
  show WalkM.ofRead r ⟨c, passed⟩ = _
  unfold WalkM.ofRead
  cases r c <;> rfl

theorem pure (a : α) : Erases (Pure.pure a) (Pure.pure a) :=
  fun _ passed => ⟨passed, rfl⟩

theorem throw (e : FormatError) : Erases (throw e : WalkM α) (throw e) :=
  fun _ passed => ⟨passed, rfl⟩

theorem bind {w : WalkM α} {r : Read α} {k : α → WalkM β} {k' : α → Read β}
    (h : Erases w r) (hk : ∀ a, Erases (k a) (k' a)) : Erases (w >>= k) (r >>= k') := by
  intro c passed
  obtain ⟨passed₁, hw⟩ := h c passed
  show ∃ passed', EStateM.bind w k ⟨c, passed⟩ = noted passed' (EStateM.bind r k' c)
  unfold EStateM.bind
  rw [hw]
  cases r c with
  | ok a c₁ => exact hk a c₁ passed₁
  | error e c₁ => exact ⟨passed₁, rfl⟩

/-- Noting a landmark leaves no trace. -/
theorem pass {landmark : Landmark} {k : Unit → WalkM β} {r : Read β} (hk : Erases (k ()) r) :
    Erases (SourceModule.pass landmark >>= k) r :=
  fun c passed => hk c (passed.push landmark)

/-- Nor does asking for a position that only the notes use. -/
theorem position {k : Nat → WalkM β} {r : Read β} (hk : ∀ n, Erases (k n) r) :
    Erases ((liftM Read.position : WalkM Nat) >>= k) r :=
  fun c passed => hk c.pos c passed

theorem ite {p : Prop} [Decidable p] {w w' : WalkM α} {r r' : Read α} (h : Erases w r)
    (h' : Erases w' r') : Erases (if p then w else w') (if p then r else r') := by
  split
  · exact h
  · exact h'

theorem mapM {items : List α} {w : α → WalkM β} {r : α → Read β}
    (h : ∀ item, Erases (w item) (r item)) : Erases (items.mapM w) (items.mapM r) := by
  induction items with
  | nil => exact pure []
  | cons item rest ih =>
    rw [List.mapM_cons, List.mapM_cons]
    exact (h item).bind fun _ => ih.bind fun _ => pure _

end Erases

end WalkM

open WalkM (Erases)

/-- Reads the line table at `base + offset` for the claimed range. -/
def readTable (base : Nat) (offset : UInt32) (range : UInt32 × UInt32) : Read LineTable := do
  Read.seekFrom base offset
  let segment ← Read.word UInt16
  let pairs := (← Read.word UInt16).toNat
  Read.ensure pairs 6
  let offsets ← Read.words UInt32 pairs
  let lines ← Read.words UInt16 pairs
  Read.check (LineTable.ofParts segment range.1 range.2 offsets lines)

/-- Reads the file table at `base + offset` and the line tables it points at. -/
def readFile (base : Nat) (offset : UInt32) : Read SourceFile := do
  Read.seekFrom base offset
  let count := (← Read.word UInt16).toNat
  let padPosition ← Read.position
  let pad ← Read.word UInt16
  if pad ≠ 0 then
    throw (.badPadding padPosition pad)
  let offsets ← Read.words UInt32 count
  let ranges ← Read.table count 8 rangeAt
  let name ← Read.prefixedName
  let tables ← (offsets.toList.zip ranges.toList).mapM fun (offset, range) =>
    readTable base offset range
  return ⟨name, tables⟩

/-- Reads the record that begins at the current position. -/
def readPlain : Read SourceModule := do
  let base ← Read.position
  let fileCount := (← Read.word UInt16).toNat
  let extentCount := (← Read.word UInt16).toNat
  let fileOffsets ← Read.words UInt32 fileCount
  let ranges ← Read.table extentCount 8 rangeAt
  let segments ← Read.words UInt16 extentCount
  let extents := segments.toList.zipWith (fun segment (first, last) => ⟨segment, first, last⟩)
    ranges.toList
  let files ← fileOffsets.toList.mapM (readFile base)
  return ⟨extents, files⟩

theorem erases_walkTable (base : Nat) (offset : UInt32) (range : UInt32 × UInt32) :
    Erases (walkTable base offset range) (readTable base offset range) := by
  unfold walkTable readTable
  refine (Erases.lift _).bind fun _ => Erases.position fun _ => ?_
  refine (Erases.lift _).bind fun segment => (Erases.lift _).bind fun pairs => Erases.pass ?_
  refine (Erases.lift _).bind fun _ => (Erases.lift _).bind fun offsets => ?_
  refine (Erases.lift _).bind fun lines => ?_
  cases LineTable.ofParts segment range.1 range.2 offsets lines with
  | ok table => exact Erases.pure table
  | error e => exact Erases.throw e

theorem erases_walkFile (base : Nat) (offset : UInt32) :
    Erases (walkFile base offset) (readFile base offset) := by
  unfold walkFile readFile
  refine (Erases.lift _).bind fun _ => Erases.position fun _ => Erases.pass ?_
  refine (Erases.lift _).bind fun count => (Erases.lift _).bind fun padPosition => ?_
  refine (Erases.lift _).bind fun pad => ?_
  refine Erases.ite ((Erases.throw _).bind fun _ => ?_) ?_
  all_goals
    refine (Erases.lift _).bind fun offsets => (Erases.lift _).bind fun ranges => ?_
    refine (Erases.lift _).bind fun name => ?_
    refine (Erases.mapM ?_).bind fun tables => Erases.pure _
    intro ⟨offset, range⟩
    exact erases_walkTable base offset range

theorem erases_walk : Erases walk readPlain := by
  unfold walk readPlain
  refine (Erases.lift _).bind fun base => ?_
  refine (Erases.lift _).bind fun fileCount => (Erases.lift _).bind fun extentCount => ?_
  refine Erases.pass ?_
  refine (Erases.lift _).bind fun fileOffsets => (Erases.lift _).bind fun ranges => ?_
  refine (Erases.lift _).bind fun segments => ?_
  refine (Erases.mapM fun offset => erases_walkFile base offset).bind fun files => ?_
  exact Erases.pure _

/-- The notes of the reader decide nothing. -/
theorem read_eq_readPlain : read = readPlain := by
  funext c
  obtain ⟨passed, hwalk⟩ := erases_walk c #[]
  unfold read readNoting
  rw [hwalk]
  cases readPlain c <;> rfl

end SourceModule

end CodeView
