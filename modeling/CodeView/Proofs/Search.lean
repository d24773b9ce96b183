import Mathlib.Data.List.Forall2

/-!
# Searching lists

What a search finds in joined lists, by index, among values that are all the same, and behind a
filter; and what stands for an item in another list.
-/

namespace CodeView

variable {α β γ : Type}

theorem findSome?_flatMap (l : List α) (g : α → List β) (f : β → Option γ) :
    (l.flatMap g).findSome? f = l.findSome? fun a => (g a).findSome? f := by
  induction l with
  | nil => rfl
  | cons a rest ih =>
    rw [List.flatMap_cons, List.findSome?_append, ih, List.findSome?_cons]
    cases (g a).findSome? f <;> rfl

/-- A search finds the first that there is to be found. -/
theorem findSome?_eq_some_iff_index {l : List α} {f : α → Option β} {b : β} :
    l.findSome? f = some b ↔
      ∃ (i : Nat) (a : α), l[i]? = some a ∧ f a = some b ∧
        ∀ j < i, ∀ a', l[j]? = some a' → f a' = none := by
  rw [List.findSome?_eq_some_iff]
  constructor
  · intro h
    obtain ⟨before, a, after, rfl, hfound, hbefore⟩ := h
    refine ⟨before.length, a, by simp, hfound, ?_⟩
    intro j hj a' ha'
    rw [List.getElem?_append_left hj] at ha'
    exact hbefore a' (List.mem_of_getElem? ha')
  · intro h
    obtain ⟨i, a, ha, hfound, hbefore⟩ := h
    obtain ⟨hi, rfl⟩ := List.getElem?_eq_some_iff.1 ha
    refine ⟨l.take i, l[i], l.drop (i + 1), ?_, hfound, ?_⟩
    · rw [← List.drop_eq_getElem_cons hi, List.take_append_drop]
    · intro a' ha'
      obtain ⟨j, hj, rfl⟩ := List.mem_take_iff_getElem.1 ha'
      exact hbefore j (by omega) _ (List.getElem?_eq_getElem (by omega))

/-- If all that is to be found is one value, a search finds it wherever it is. -/
theorem findSome?_eq_some_iff_of_unique {l : List α} {f : α → Option β} {b : β}
    (unique : ∀ a ∈ l, ∀ a' ∈ l, ∀ x y, f a = some x → f a' = some y → x = y) :
    l.findSome? f = some b ↔ ∃ a ∈ l, f a = some b := by
  constructor
  · exact List.exists_of_findSome?_eq_some
  · rintro ⟨a, ha, hb⟩
    cases hfound : l.findSome? f with
    | none =>
      rw [List.findSome?_eq_none_iff.1 hfound a ha] at hb
      cases hb
    | some x =>
      obtain ⟨a', ha', hx⟩ := List.exists_of_findSome?_eq_some hfound
      rw [unique a' ha' a ha x b hx hb]

theorem findSome?_filter (l : List α) (p : α → Bool) (f : α → Option β) :
    (l.filter p).findSome? f = l.findSome? fun a => if p a then f a else none := by
  induction l with
  | nil => rfl
  | cons a rest ih =>
    rw [List.filter_cons, List.findSome?_cons]
    by_cases hp : p a = true
    · rw [if_pos hp, if_pos hp, List.findSome?_cons, ih]
    · rw [if_neg hp, if_neg hp, ih]

/-- What stands for an item stands where the item stood. -/
theorem exists_mem_of_forall₂ {R : α → β → Prop} {l : List α} {l' : List β}
    (h : List.Forall₂ R l l') {a : α} (ha : a ∈ l) : ∃ b ∈ l', R a b := by
  induction h with
  | nil => cases ha
  | cons hfirst _ ih =>
    rcases List.mem_cons.1 ha with rfl | ha
    · exact ⟨_, List.mem_cons_self, hfirst⟩
    · obtain ⟨b, hb, hab⟩ := ih ha
      exact ⟨b, List.mem_cons_of_mem _ hb, hab⟩

end CodeView
