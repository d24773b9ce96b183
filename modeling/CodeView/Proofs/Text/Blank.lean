import CodeView.Text.Blank
import Mathlib.Data.List.DropRight

/-!
# Removing white space

`trim_eq_iff` says what is left of a text without the white space around it.
-/

namespace CodeView.Text

/-- The characters are `core` with white space around it, and `core` neither begins nor ends with
white space. -/
structure Trimmed (chars core : List Char) : Prop where
  around : ∃ before after, chars = before ++ (core ++ after) ∧ (∀ c ∈ before, isBlank c) ∧
    ∀ c ∈ after, isBlank c
  first : ∀ c ∈ core.head?, ¬ isBlank c
  last : ∀ c ∈ core.getLast?, ¬ isBlank c

variable {chars core front back : List Char}

theorem dropWhile_isBlank_append (hfront : ∀ c ∈ front, isBlank c)
    (hback : ∀ c ∈ back.head?, ¬ isBlank c) : (front ++ back).dropWhile isBlank = back := by
  rw [List.dropWhile_append_of_pos hfront]
  cases back with
  | nil => rfl
  | cons c back => exact List.dropWhile_cons_of_neg (hback c rfl)

theorem trimmed_trim (chars : List Char) : Trimmed chars (trim chars) := by
  have htrim : trim chars = (chars.dropWhile isBlank).rdropWhile isBlank := rfl
  rw [htrim]
  refine ⟨⟨chars.takeWhile isBlank, (chars.dropWhile isBlank).rtakeWhile isBlank, ?_, ?_, ?_⟩,
    ?_, ?_⟩
  · rw [List.rdropWhile_append_rtakeWhile, List.takeWhile_append_dropWhile]
  · exact fun c => List.mem_takeWhile_imp
  · exact fun c => List.mem_rtakeWhile_imp
  · intro c hc
    obtain ⟨after, hafter⟩ := List.rdropWhile_prefix isBlank (chars.dropWhile isBlank)
    have hhead : (chars.dropWhile isBlank).head? = some c := by
      rw [← hafter, List.head?_append, hc, Option.some_or]
    have := List.head?_dropWhile_not isBlank chars
    simpa [hhead] using this
  · intro c hc
    obtain ⟨hne, rfl⟩ := List.mem_getLast?_eq_getLast hc
    exact List.rdropWhile_last_not isBlank _ hne

theorem Trimmed.trim_eq (h : Trimmed chars core) : trim chars = core := by
  obtain ⟨⟨before, after, rfl, hbefore, hafter⟩, hfirst, hlast⟩ := h
  obtain rfl | hne := eq_or_ne core []
  · have hblank : (before ++ ([] ++ after)).dropWhile isBlank = [] :=
      List.dropWhile_eq_nil_iff.2 (List.forall_mem_append.2 ⟨hbefore, hafter⟩)
    rw [trim, hblank]
    rfl
  · have hhead : ∀ c ∈ (core ++ after).head?, ¬ isBlank c := by
      rwa [List.head?_append_of_ne_nil _ hne]
    rw [trim, dropWhile_isBlank_append hbefore hhead, List.reverse_append,
      dropWhile_isBlank_append, List.reverse_reverse]
    · exact fun c hc => hafter c (List.mem_reverse.1 hc)
    · rwa [List.head?_reverse]

/-- What is left of the characters without the white space at their ends. -/
theorem trim_eq_iff : trim chars = core ↔ Trimmed chars core :=
  ⟨fun h => h ▸ trimmed_trim chars, Trimmed.trim_eq⟩

end CodeView.Text
