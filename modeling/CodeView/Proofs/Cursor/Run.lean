import CodeView.Proofs.Cursor.Operation

/-!
# Runs of cursors

Whatever is asked of cursors, and whatever fails, each of them stays in its window and its window in
the source. `Cursor.run_safe` says this of every run that begins with one cursor, and from it what
each operation then does.
-/

namespace CodeView

namespace Cursor

variable {source : ByteArray} {c c' : Cursor} {op : Operation} {v : Value} {cursors : List Cursor}

/-- A cursor over this source that is in its window. -/
structure Over (source : ByteArray) (c : Cursor) : Prop where
  source_eq : c.source = source
  inside : c.Inside

/-! ## One operation -/

namespace Over

theorem moveTo (h : Over source c) {pos : Nat} (start : c.start ≤ pos) (limit : pos ≤ c.limit) :
    Over source (c.moveTo pos) :=
  ⟨h.source_eq, start, limit, h.inside.2.2⟩

theorem does (h : Over source c) (hdoes : c.Does op v c') : Over source c' := by
  cases hdoes with
  | window => exact h
  | copy => exact h
  | seek start limit => exact h.moveTo start limit
  | seekFrom start limit => exact h.moveTo start limit
  | ensure => exact h
  | read _ fits _ => exact h.moveTo (Nat.le_add_right_of_le h.inside.1) fits

/-- A cursor that is made lies in the same source. -/
theorem made (h : Over source c) {made : Cursor} (hdoes : c.Does op (.cursor made) c') :
    Over source made := by
  cases hdoes with
  | window fits => exact ⟨h.source_eq, Nat.le_refl _, Nat.le_add_right _ _, fits⟩
  | copy => exact h
  | read stores => cases stores

theorem failed (h : Over source c) {e : FormatError} (herror : op.perform c = .error e c') :
    Over source c' := by
  obtain ⟨hstart, -, -⟩ := h.inside
  rw [eq_of_perform_eq_error herror]
  split
  case isTrue hname => exact h.moveTo (Nat.le_succ_of_le hstart) hname.2
  case isFalse => exact h

end Over

/-! ## Runs -/

theorem over_set (h : ∀ c ∈ cursors, Over source c) (hc' : Over source c') (i : Nat) :
    ∀ c ∈ cursors.set i c', Over source c := by
  intro c hc
  rcases List.mem_or_eq_of_mem_set hc with hc | rfl
  · exact h c hc
  · exact hc'

/-- A step keeps every cursor in its window. -/
theorem over_step (hsize : source.size < maxPosition) (h : ∀ c ∈ cursors, Over source c)
    (s : Step) : ∀ c ∈ step cursors s, Over source c := by
  unfold step
  split
  case h_1 => exact h
  case h_2 c hget =>
    have hc : Over source c := h c (List.mem_of_getElem? hget)
    have does {v : Value} {c' : Cursor} (hok : s.operation.perform c = .ok v c') :
        c.Does s.operation v c' :=
      does_of_perform hc.inside (hc.source_eq ▸ hsize) hok
    split
    case h_1 made c' hok =>
      intro c hmem
      rcases List.mem_append.1 hmem with hmem | hmem
      · exact over_set h (hc.does (does hok)) _ c hmem
      · obtain rfl := List.mem_singleton.1 hmem
        exact hc.made (does hok)
    case h_2 c' _ hok => exact over_set h (hc.does (does hok)) _
    case h_3 e c' herror => exact over_set h (hc.failed herror) _

theorem over_run (hsize : source.size < maxPosition) (steps : List Step) :
    ∀ c ∈ run source steps, Over source c := by
  have hfirst : ∀ c ∈ [ofBytes source], Over source c := by
    intro c hc
    obtain rfl := List.mem_singleton.1 hc
    exact ⟨rfl, inside_ofBytes source⟩
  rw [run]
  generalize [ofBytes source] = cursors at hfirst
  induction steps generalizing cursors with
  | nil => exact hfirst
  | cons s rest ih => exact ih _ (over_step hsize hfirst s)

/-- **Cursors are safe.** After any run, failures included, every cursor over the source is in its
window and the window in the source. From there an operation succeeds exactly where `Does` says so,
with the answer and the move that it gives; what is read depends on the bytes that are taken and on
nothing else. An operation that fails moves nothing, but a name that is cut off leaves the cursor
behind the byte that counts its bytes. The source has fewer bytes than there are positions. -/
theorem run_safe (source : ByteArray) (hsize : source.size < maxPosition) (steps : List Step) :
    ∀ c ∈ run source steps,
      (c.source = source ∧ c.start ≤ c.pos ∧ c.pos ≤ c.limit ∧ c.limit ≤ source.size) ∧
      ∀ op : Operation,
        (∀ v c', op.perform c = .ok v c' ↔ c.Does op v c') ∧
        (∀ taken v v', op.Stores taken v → op.Stores taken v' → v = v') ∧
        ∀ e c', op.perform c = .error e c' →
          c' = if op = .prefixedName ∧ c.pos < c.limit then c.moveTo (c.pos + 1) else c := by
  intro c hc
  obtain ⟨rfl, hinside⟩ := over_run hsize steps c hc
  refine ⟨⟨rfl, hinside⟩, fun op => ⟨?_, ?_, ?_⟩⟩
  · exact fun v c' => perform_eq_ok_iff hinside hsize
  · exact fun taken v v' => Operation.Stores.unique
  · exact fun e c' => eq_of_perform_eq_error

/-- A name of two bytes, and one that is cut off. -/
def twoNames : ByteArray := ⟨#[2, 97, 98, 9, 99]⟩

/-- Both names are read, the second one in a window of its own, where the cursor stays for the two
requests that leave it. -/
def twoNamesSteps : List Step :=
  [⟨0, .window 3 2 "names"⟩, ⟨0, .prefixedName⟩, ⟨1, .prefixedName⟩,
    ⟨1, .ensure 0xffffffffffffffff 0xffffffffffffffff⟩, ⟨1, .seek 2⟩]

theorem run_safe_twoNames :
    let c : Cursor := ⟨twoNames, 3, 5, 4⟩
    twoNames.size < maxPosition ∧
      run twoNames twoNamesSteps = [⟨twoNames, 0, 5, 3⟩, c] ∧
      Operation.perform (.bytes 1) c = .ok (.bytes [99]) (c.moveTo 5) ∧
      ∀ e c', Operation.perform (.word .two) c = .error e c' → c' = c := by
  intro c
  have hsize : twoNames.size < maxPosition := by decide
  have hrun : run twoNames twoNamesSteps = [⟨twoNames, 0, 5, 3⟩, c] := rfl
  have hc : c ∈ run twoNames twoNamesSteps := by
    rw [hrun]
    exact .tail _ (.head _)
  have stores : Operation.Stores (.bytes 1) [99] (.bytes [99]) := .bytes rfl
  have does : c.Does (.bytes 1) (.bytes [99]) (c.moveTo 5) :=
    .read stores (by decide) ⟨by decide, by decide⟩
  obtain ⟨-, safe⟩ := run_safe twoNames hsize twoNamesSteps c hc
  exact ⟨hsize, hrun, ((safe (.bytes 1)).1 _ _).2 does, (safe (.word .two)).2.2⟩

end Cursor

end CodeView
