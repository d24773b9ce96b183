import CodeView.ModuleInfo.Layout
import CodeView.Proofs.Check
import CodeView.Proofs.Reading

/-!
# What the reader of module descriptors accepts

A module descriptor is read behind a list of checks: there is room for the header and all segments,
no reserved field holds anything, and there is room for the name. `ModuleInfo.result_read` says that
the first check that does not hold is what is reported, and `ModuleInfo.result_read_precedence` what
this means for a descriptor with several faults at once.
-/

namespace CodeView.ModuleInfo

open Read

variable {source : ByteArray} {base limit : Nat}

/-- There is room for the header and for all segments. -/
def roomChecks (source : ByteArray) (limit base : Nat) : List Check :=
  [⟨base + 2 ≤ limit, .outOfBounds base 2 limit⟩,
    ⟨base + 4 ≤ limit, .outOfBounds (base + 2) 2 limit⟩,
    ⟨base + 6 ≤ limit, .outOfBounds (base + 4) 2 limit⟩,
    ⟨base + 8 ≤ limit, .outOfBounds (base + 6) 2 limit⟩,
    ⟨namePlace source base ≤ limit,
      .outOfBounds (base + 8) (countAt source base * ModuleSegment.width) limit⟩]

/-- The reserved field at each of the places is zero. -/
def reservedChecks (source : ByteArray) (places : List Nat) : List Check :=
  places.map fun place =>
    ⟨wordAt UInt16 source place = 0, .badPadding place (wordAt UInt16 source place)⟩

/-- There is room for the name. -/
def nameChecks (source : ByteArray) (limit base : Nat) : List Check :=
  let place := namePlace source base
  let length := (byteAt source place).toNat
  [⟨place + 1 ≤ limit, .outOfBounds place 1 limit⟩,
    ⟨place + 1 + length ≤ limit, .outOfBounds (place + 1) length limit⟩]

/-- The checks of the descriptor at a position, in the order in which they are made. -/
def checks (source : ByteArray) (limit base : Nat) : List Check :=
  roomChecks source limit base ++
    reservedChecks source (reservedPlaces (base + 8) (countAt source base)) ++
    nameChecks source limit base

/-! ## The checks and the layout -/

theorem mem_reservedPlaces {count place : Nat} :
    place ∈ reservedPlaces (base + 8) count ↔ ∃ i < count, segmentPlace base i + 2 = place := by
  simp [reservedPlaces, segmentPlace]

theorem holds_reservedChecks_iff {places : List Nat} :
    (∀ check ∈ reservedChecks source places, check.holds = true) ↔
      ∀ place ∈ places, wordAt UInt16 source place = 0 := by
  simp [reservedChecks]

theorem holds_checks_iff :
    (∀ check ∈ checks source limit base, check.holds = true) ↔ Fits source base limit := by
  simp only [checks, List.forall_mem_append, holds_reservedChecks_iff, mem_reservedPlaces,
    roomChecks, nameChecks, List.forall_mem_cons, decide_eq_true_eq]
  constructor
  · rintro ⟨⟨⟨-, -, -, hhead, hroom, -⟩, hreserved⟩, hlength, hname, -⟩
    exact ⟨hhead, hlength, fun i hi => hreserved _ ⟨i, hi, rfl⟩, hname⟩
  · rintro ⟨hhead, hlength, hreserved, hname⟩
    refine ⟨⟨⟨by omega, by omega, by omega, hhead, by omega, by simp⟩, ?_⟩, hlength, hname, by simp⟩
    rintro _ ⟨i, hi, rfl⟩
    exact hreserved i hi

/-- The first place that is not zero is the one that is reported. -/
theorem fault?_reservedChecks (places : List Nat) :
    Check.fault? (reservedChecks source places) =
      (firstNonzero? source places).map fun place =>
        .badPadding place (wordAt UInt16 source place) := by
  rw [Check.fault?, reservedChecks, List.find?_map, Option.map_map, firstNonzero?]
  simp [Function.comp_def]

/-! ## Reading -/

/-- A segment ends before the name begins. -/
theorem segmentPlace_add_le {i : Nat} (hi : i < countAt source base) :
    segmentPlace base i + ModuleSegment.width ≤ namePlace source base := by
  have hnext : (i + 1) * ModuleSegment.width ≤ countAt source base * ModuleSegment.width :=
    Nat.mul_le_mul_right _ hi
  rw [Nat.add_one_mul] at hnext
  unfold namePlace segmentPlace
  omega

theorem result_read {c : Cursor} (hstart : c.start ≤ c.pos) :
    read.result c = Check.run (stored c.source c.pos) (checks c.source c.limit c.pos) := by
  have hcount : (wordAt UInt16 c.source (c.pos + 4)).toNat = countAt c.source c.pos := rfl
  simp only [read, result_word_bind, width_uint16, Cursor.pos_moveTo, Cursor.source_moveTo,
    Cursor.limit_moveTo, Cursor.moveTo_moveTo, Nat.add_assoc, Nat.reduceAdd, hcount]
  simp only [checks, roomChecks, List.cons_append, List.nil_append, Check.run, decide_eq_true_eq]
  refine ite_congr rfl (fun _ => ?_) fun _ => rfl
  refine ite_congr rfl (fun _ => ?_) fun _ => rfl
  refine ite_congr rfl (fun _ => ?_) fun _ => rfl
  refine ite_congr rfl (fun hhead => ?_) fun _ => rfl
  have hbound : countAt c.source c.pos * ModuleSegment.width ≤ Cursor.maxPosition := by
    have hlt : countAt c.source c.pos < 65536 := UInt16.toNat_lt _
    unfold ModuleSegment.width Cursor.maxPosition UInt64.size
    omega
  have hroom : countAt c.source c.pos * ModuleSegment.width ≤ c.limit - (c.pos + 8) ↔
      namePlace c.source c.pos ≤ c.limit := by
    unfold namePlace segmentPlace
    omega
  rw [result_ensure_bind, Nat.min_eq_left hbound]
  refine ite_congr (propext hroom) (fun hfits => ?_) fun _ => rfl
  rw [result_position_bind, result_get_bind]
  simp only [Cursor.pos_moveTo, Cursor.source_moveTo]
  cases hfound : firstNonzero? c.source (reservedPlaces (c.pos + 8) (countAt c.source c.pos)) with
  | some place =>
    have hfault : Check.fault? (reservedChecks c.source
        (reservedPlaces (c.pos + 8) (countAt c.source c.pos))) =
        some (.badPadding place (wordAt UInt16 c.source place)) := by
      rw [fault?_reservedChecks, hfound]
      rfl
    rw [Check.run_eq_error.2 (Check.fault?_append_eq_some.2 (.inl hfault))]
    obtain ⟨i, hi, rfl⟩ := mem_reservedPlaces.1 (List.mem_of_find?_eq_some hfound)
    have hend := segmentPlace_add_le hi
    have hwidth : ModuleSegment.width = 12 := rfl
    have hbegin : c.start ≤ segmentPlace c.pos i + 2 + 2 := by
      unfold segmentPlace
      omega
    have hseek := seek_eq_ok (c := c.moveTo (c.pos + 8)) (u := ()).2 ⟨hbegin, by
      show segmentPlace c.pos i + 2 + 2 ≤ c.limit
      omega, rfl⟩
    exact result_bind_of_ok hseek
  | none =>
    have hholds : ∀ check ∈ reservedChecks c.source
        (reservedPlaces (c.pos + 8) (countAt c.source c.pos)), check.holds = true := by
      rw [holds_reservedChecks_iff]
      rw [firstNonzero?, List.find?_eq_none] at hfound
      simpa using hfound
    rw [Check.run_append_of_holds hholds]
    have hplace : c.pos + 8 + countAt c.source c.pos * ModuleSegment.width =
        namePlace c.source c.pos := rfl
    refine (result_bind_of_ok (table_eq_ok.2 ⟨hfits, rfl, rfl⟩)).trans ?_
    rw [result_prefixedName_bind]
    simp only [Cursor.pos_moveTo, Cursor.source_moveTo, Cursor.limit_moveTo, hplace, nameChecks,
      Check.run, decide_eq_true_eq]
    refine ite_congr rfl (fun _ => ite_congr rfl (fun _ => ?_) fun _ => rfl) fun _ => rfl
    rw [toList_ofFn _ fun i =>
      ModuleSegment.stored c.source (c.pos + 8 + i * ModuleSegment.width)]
    rfl

/-! ## Faults -/

theorem holds_roomChecks (h : namePlace source base ≤ limit) :
    ∀ check ∈ roomChecks source limit base, check.holds = true := by
  have hhead : base + 8 ≤ namePlace source base := Nat.le_add_right _ _
  simp only [roomChecks, List.forall_mem_cons, decide_eq_true_eq]
  exact ⟨by omega, by omega, by omega, by omega, h, by simp⟩

/-- Without room for something the window is left. -/
theorem exists_outOfBounds {checks : List Check}
    (hreports : ∀ check ∈ checks, ∃ position length,
      check.report = .outOfBounds position length limit)
    (h : ¬ ∀ check ∈ checks, check.holds = true) :
    ∃ position length, Check.fault? checks = some (.outOfBounds position length limit) := by
  obtain ⟨check, hcheck, hfault⟩ := Check.exists_fault?_of_not_holds h
  obtain ⟨position, length, hreport⟩ := hreports check hcheck
  exact ⟨position, length, hfault.trans (congrArg some hreport)⟩

theorem firstNonzero?_eq_some {count i : Nat} (hi : i < count)
    (hzero : ∀ j < i, wordAt UInt16 source (segmentPlace base j + 2) = 0)
    (hne : wordAt UInt16 source (segmentPlace base i + 2) ≠ 0) :
    firstNonzero? source (reservedPlaces (base + 8) count) = some (segmentPlace base i + 2) := by
  rw [firstNonzero?, reservedPlaces, List.find?_map, Option.map_eq_some_iff]
  refine ⟨i, List.find?_range_eq_some.2 ⟨?_, List.mem_range.2 hi, fun j hj => ?_⟩, rfl⟩
  · exact decide_eq_true hne
  · show (!decide (wordAt UInt16 source (segmentPlace base j + 2) ≠ 0)) = true
    simp [hzero j hj]

/-- **Faults of a module descriptor are found in a fixed order.** A descriptor is read if it fits in
the window with zeros in its reserved fields, as it is stored and whatever follows it. If there is
no room for its header and its segments, the report is that it leaves the window, whatever its
reserved fields hold. Otherwise the first reserved field that is not zero is reported with its
position and its value, whether there is room for the name or not. Otherwise the name is what leaves
the window. -/
theorem result_read_precedence {c : Cursor} (hc : c.Inside) :
    (∀ info, read.result c = .ok info ↔
      Fits c.source c.pos c.limit ∧ info = stored c.source c.pos) ∧
    (c.limit < c.pos + 8 ∨ c.limit < namePlace c.source c.pos →
      ∃ position length, read.result c = .error (.outOfBounds position length c.limit)) ∧
    (namePlace c.source c.pos ≤ c.limit →
      (∀ i < countAt c.source c.pos,
        (∀ j < i, wordAt UInt16 c.source (segmentPlace c.pos j + 2) = 0) →
        wordAt UInt16 c.source (segmentPlace c.pos i + 2) ≠ 0 →
        read.result c = .error (.badPadding (segmentPlace c.pos i + 2)
          (wordAt UInt16 c.source (segmentPlace c.pos i + 2)))) ∧
      ((∀ i < countAt c.source c.pos, wordAt UInt16 c.source (segmentPlace c.pos i + 2) = 0) →
        c.limit < namePlace c.source c.pos + 1 +
          (byteAt c.source (namePlace c.source c.pos)).toNat →
        ∃ position length, read.result c = .error (.outOfBounds position length c.limit))) := by
  have hread := result_read hc.1
  refine ⟨fun info => ?_, fun hroom => ?_, fun hroom => ⟨fun i hi hzero hne => ?_, ?_⟩⟩
  · rw [hread, Check.run_eq_ok, holds_checks_iff]
  · have hnone : ¬ ∀ check ∈ roomChecks c.source c.limit c.pos, check.holds = true := by
      simp only [roomChecks, List.forall_mem_cons, decide_eq_true_eq]
      omega
    have hreports : ∀ check ∈ roomChecks c.source c.limit c.pos, ∃ position length,
        check.report = .outOfBounds position length c.limit := by simp [roomChecks]
    obtain ⟨position, length, hfault⟩ := exists_outOfBounds hreports hnone
    refine ⟨position, length, ?_⟩
    rw [hread, Check.run_eq_error, checks, List.append_assoc]
    exact Check.fault?_append_eq_some.2 (.inl hfault)
  · rw [hread, Check.run_eq_error, checks, List.append_assoc]
    refine Check.fault?_append_eq_some.2 (.inr ⟨holds_roomChecks hroom, ?_⟩)
    refine Check.fault?_append_eq_some.2 (.inl ?_)
    rw [fault?_reservedChecks, firstNonzero?_eq_some hi hzero hne]
    rfl
  · intro hzero hname
    have hnone : ¬ ∀ check ∈ nameChecks c.source c.limit c.pos, check.holds = true := by
      simp only [nameChecks, List.forall_mem_cons, decide_eq_true_eq]
      omega
    have hreserved : ∀ check ∈ reservedChecks c.source
        (reservedPlaces (c.pos + 8) (countAt c.source c.pos)), check.holds = true := by
      rw [holds_reservedChecks_iff]
      intro place hplace
      obtain ⟨i, hi, rfl⟩ := mem_reservedPlaces.1 hplace
      exact hzero i hi
    have hreports : ∀ check ∈ nameChecks c.source c.limit c.pos, ∃ position length,
        check.report = .outOfBounds position length c.limit := by simp [nameChecks]
    obtain ⟨position, length, hfault⟩ := exists_outOfBounds hreports hnone
    refine ⟨position, length, ?_⟩
    rw [hread, Check.run_eq_error, checks, List.append_assoc]
    refine Check.fault?_append_eq_some.2 (.inr ⟨holds_roomChecks hroom, ?_⟩)
    exact Check.fault?_append_eq_some.2 (.inr ⟨hreserved, hfault⟩)

/-- A byte, and behind it a descriptor of two segments, with a reserved field that holds something
and with a name that is cut off. -/
def twoFaults : ByteArray :=
  ⟨#[9, 1, 0, 2, 0, 2, 0, 67, 86, 1, 0, 0, 0, 0, 1, 0, 0, 16, 0, 0, 0,
    2, 0, 5, 0, 0, 2, 0, 0, 32, 0, 0, 0, 3, 97]⟩

theorem result_read_precedence_twoFaults :
    let c : Cursor := ⟨twoFaults, 1, 35, 1⟩
    c.Inside ∧ namePlace c.source c.pos = 33 ∧ read.result c = .error (.badPadding 23 5) := by
  intro c
  have inside : c.Inside := by decide
  have room : namePlace c.source c.pos ≤ c.limit := by decide +kernel
  obtain ⟨-, -, faults⟩ := result_read_precedence inside
  exact ⟨inside, by decide +kernel,
    (faults room).1 1 (by decide +kernel) (by decide +kernel) (by decide +kernel)⟩

end CodeView.ModuleInfo
