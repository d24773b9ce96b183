import CodeView.Proofs.LineTable
import CodeView.Proofs.SourceModule.Plain

/-!
# Source modules with checked line tables

Each line table of a source module is checked when it is made. `SourceModule.wellFormed_of_read`
says that the reader gives no others.
-/

namespace CodeView

namespace Read

variable {α β : Type}

/-- Whatever the reading gives has the property. -/
def Gives (r : Read α) (property : α → Prop) : Prop :=
  ∀ c a c', r c = .ok a c' → property a

namespace Gives

variable {r : Read α} {k : α → Read β} {first : α → Prop} {property : β → Prop}

theorem bind (h : Gives r first) (hk : ∀ a, first a → Gives (k a) property) :
    Gives (r >>= k) property := by
  intro c b c' hrun
  obtain ⟨a, c₁, ha, hb⟩ := bind_eq_ok.1 hrun
  exact hk a (h c a c₁ ha) c₁ b c' hb

/-- The property is that of the last reading, whatever was read before. -/
theorem last (hk : ∀ a, Gives (k a) property) : Gives (r >>= k) property := by
  have anything : Gives r fun _ => True := fun _ _ _ _ => trivial
  exact anything.bind fun a _ => hk a

theorem pure {b : β} (h : property b) : Gives (Pure.pure b) property := by
  intro c b' c' hrun
  rw [(pure_eq_ok.1 hrun).1]
  exact h

theorem throw_bind {e : FormatError} : Gives (throw e >>= k) property := by
  intro c b c' hrun
  obtain ⟨_, _, hthrow, -⟩ := bind_eq_ok.1 hrun
  exact absurd hthrow throw_ne_ok

theorem mapM {items : List α} (h : ∀ item ∈ items, Gives (k item) property) :
    Gives (items.mapM k) fun given => ∀ b ∈ given, property b := by
  induction items with
  | nil => exact pure fun _ hb => absurd hb List.not_mem_nil
  | cons item rest ih =>
    rw [List.mapM_cons]
    refine (h item List.mem_cons_self).bind fun b hb => ?_
    have hrest := ih fun item' hitem' => h item' (List.mem_cons_of_mem _ hitem')
    refine hrest.bind fun given hall => ?_
    refine pure fun b' hb' => ?_
    rcases List.mem_cons.1 hb' with rfl | hb'
    · exact hb
    · exact hall b' hb'

end Gives

end Read

/-- Every line table is well formed. -/
def SourceFile.WellFormed (file : SourceFile) : Prop :=
  ∀ table ∈ file.tables, table.WellFormed

namespace SourceModule

open Read

/-- Every line table of every file is well formed. -/
def WellFormed (m : SourceModule) : Prop :=
  ∀ file ∈ m.files, file.WellFormed

instance (m : SourceModule) : Decidable m.WellFormed :=
  inferInstanceAs (Decidable (∀ file ∈ m.files, ∀ table ∈ file.tables, table.WellFormed))

theorem gives_readTable (base : Nat) (offset : UInt32) (range : UInt32 × UInt32) :
    Gives (readTable base offset range) LineTable.WellFormed := by
  unfold readTable
  refine .last fun _ => .last fun segment => .last fun pairs => .last fun _ => ?_
  refine .last fun offsets => .last fun lines => ?_
  intro c t c' hrun
  -- the check that comes last is the one that makes the table
  obtain ⟨hwell, rfl⟩ := LineTable.ofParts_eq_ok.1 (check_eq_ok.1 hrun).1
  exact hwell

theorem gives_readFile (base : Nat) (offset : UInt32) :
    Gives (readFile base offset) SourceFile.WellFormed := by
  unfold readFile
  refine .last fun _ => .last fun count => .last fun padPosition => .last fun pad => ?_
  split
  case isTrue => exact .throw_bind
  case isFalse =>
    refine .last fun offsets => .last fun ranges => .last fun name => ?_
    exact (Gives.mapM fun (offset, range) _ => gives_readTable base offset range).bind
      fun tables htables => .pure htables

/-- Every line table of a source module that is read is well formed. -/
theorem wellFormed_of_read {c c' : Cursor} {m : SourceModule} (h : read c = .ok m c') :
    m.WellFormed := by
  have gives : Gives readPlain WellFormed := by
    unfold readPlain
    refine .last fun base => .last fun fileCount => .last fun extentCount => ?_
    refine .last fun fileOffsets => .last fun ranges => .last fun segments => ?_
    exact (Gives.mapM fun offset _ => gives_readFile base offset).bind
      fun files hfiles => .pure hfiles
  rw [read_eq_readPlain] at h
  exact gives c m c' h

end SourceModule

end CodeView
