import CodeView.FormatError

/-!
# Checks in a fixed order

Where several things must hold before a value may be read, the first of them that does not hold is
what is reported. A list of checks with their reports says both: when there is a value, and which
report there is if not.
-/

namespace CodeView

@[simp] theorem FormatError.shift_zero (e : FormatError) : e.shift 0 = e := by
  cases e <;> rfl

/-- What must hold, and what is reported if it does not. -/
structure Check where
  holds : Bool
  report : FormatError

namespace Check

variable {α : Type} {value a : α} {e : FormatError} {checks : List Check}

/-- The value, if all checks hold, or the report of the first one that does not. -/
def run (value : α) : List Check → Except FormatError α
  | [] => .ok value
  | check :: rest => if check.holds then run value rest else .error check.report

/-- The report of the first check that does not hold. -/
def fault? (checks : List Check) : Option FormatError :=
  (checks.find? fun check => !check.holds).map (·.report)

theorem run_eq_ok :
    run value checks = .ok a ↔ (∀ check ∈ checks, check.holds = true) ∧ a = value := by
  induction checks with
  | nil =>
    simp only [run, Except.ok.injEq, List.not_mem_nil, false_implies, implies_true, true_and]
    exact eq_comm
  | cons check rest ih =>
    cases h : check.holds with
    | true => simp [run, h, ih]
    | false => simp [run, h]

theorem run_eq_error : run value checks = .error e ↔ fault? checks = some e := by
  induction checks with
  | nil => simp [run, fault?]
  | cons check rest ih =>
    cases h : check.holds with
    | true => simpa [run, fault?, h] using ih
    | false => simp [run, fault?, h]

theorem fault?_cons_eq_some {check : Check} :
    fault? (check :: checks) = some e ↔
      check.holds = false ∧ e = check.report ∨ check.holds = true ∧ fault? checks = some e := by
  cases h : check.holds with
  | true => simp [fault?, h]
  | false => simp [fault?, h, eq_comm]

theorem fault?_append_eq_some {others : List Check} :
    fault? (checks ++ others) = some e ↔
      fault? checks = some e ∨ (∀ check ∈ checks, check.holds = true) ∧ fault? others = some e := by
  induction checks with
  | nil => simp [fault?]
  | cons check rest ih =>
    rw [List.cons_append, fault?_cons_eq_some, fault?_cons_eq_some, ih, List.forall_mem_cons]
    cases check.holds with
    | true => simp
    | false => simp

/-- Where a check does not hold, one of the reports is made. -/
theorem exists_fault?_of_not_holds (h : ¬ ∀ check ∈ checks, check.holds = true) :
    ∃ check ∈ checks, fault? checks = some check.report := by
  cases hfound : checks.find? fun check => !check.holds with
  | none =>
    rw [List.find?_eq_none] at hfound
    exact absurd (fun check hcheck => by simpa using hfound check hcheck) h
  | some check =>
    refine ⟨check, List.mem_of_find?_eq_some hfound, ?_⟩
    rw [fault?, hfound]
    rfl

/-- Checks that hold are passed. -/
theorem run_append_of_holds {others : List Check} (h : ∀ check ∈ checks, check.holds = true) :
    run value (checks ++ others) = run value others := by
  induction checks with
  | nil => rfl
  | cons check rest ih =>
    rw [List.forall_mem_cons] at h
    rw [List.cons_append, run, if_pos h.1, ih h.2]

theorem run_map {β : Type} (f : α → β) (checks : List Check) :
    (run value checks).map f = run (f value) checks := by
  induction checks with
  | nil => rfl
  | cons check rest ih =>
    cases h : check.holds with
    | true => simpa [run, h] using ih
    | false => simp [run, h, Except.map]

/-- Checks after other checks, which may depend on the value read behind those. -/
theorem run_bind_run {β : Type} (next : α → β) (others : α → List Check) (checks : List Check) :
    ((run value checks).bind fun a => run (next a) (others a)) =
      run (next value) (checks ++ others value) := by
  induction checks with
  | nil => rfl
  | cons check rest ih =>
    cases h : check.holds with
    | true => simpa [run, h] using ih
    | false => simp [run, h, Except.bind]

/-- The same check of bytes that lie `distance` further on. -/
def shift (distance : Nat) (check : Check) : Check :=
  ⟨check.holds, check.report.shift distance⟩

theorem shift_zero : shift 0 = id := by
  funext ⟨holds, report⟩
  rw [shift, FormatError.shift_zero]
  rfl

theorem run_map_shift (distance : Nat) (checks : List Check) :
    run value (checks.map (shift distance)) =
      (run value checks).mapError (·.shift distance) := by
  induction checks with
  | nil => rfl
  | cons check rest ih =>
    cases h : check.holds with
    | true => simpa [run, shift, h] using ih
    | false =>
      simp only [List.map_cons, run, shift, h]
      rfl

end Check

end CodeView
