import CodeView.Proofs.Search
import CodeView.Text.Number
import Mathlib.Data.Nat.Digits.Defs
import Mathlib.Tactic.IntervalCases

/-!
# Numerals

Which texts are read as an unsigned number and what is said of the others. `Numeral` is the
grammar, and `Exceeds` says that a numeral in front is already too large: the reader is told by
these two (`readUnsigned_eq_ok_iff`, `readUnsigned_eq_overflow_iff`). The digits that are printed
write their number, with any number of zeros in front of them (`writes_toDigits`, `Writes.zeros`).
-/

namespace CodeView.Text

variable {base limit value n d : Nat} {c : Char} {chars rest : List Char}

/-! ## Digits -/

/-- `c` is the digit `d` of the base, a letter in either case. -/
def IsDigit (base : Nat) (c : Char) (d : Nat) : Prop :=
  d < base ∧ (c = Nat.digitChar d ∨ c = (Nat.digitChar d).toUpper)

theorem isDigit_digitChar (h : d < base) : IsDigit base (Nat.digitChar d) d :=
  ⟨h, .inl rfl⟩

theorem toNat_digitChar_of_ten_le (h : 10 ≤ d) (h' : d < 16) :
    (Nat.digitChar d).toNat = 87 + d := by
  interval_cases d <;> rfl

theorem toNat_toUpper_digitChar_of_ten_le (h : 10 ≤ d) (h' : d < 16) :
    (Nat.digitChar d).toUpper.toNat = 55 + d := by
  interval_cases d <;> rfl

theorem isDigit_of_digitValue?_eq_some (hbase : base ≤ 16) (h : digitValue? base c = some d) :
    IsDigit base c d := by
  simp only [digitValue?, Option.ite_none_right_eq_some, Option.some.injEq] at h
  obtain ⟨hlt, rfl⟩ := h
  refine ⟨hlt, ?_⟩
  rw [← Char.toNat_inj, ← Char.toNat_inj]
  split_ifs at hlt ⊢ with hnumber hlower hupper
  · change 48 ≤ c.toNat ∧ c.toNat ≤ 57 at hnumber
    change c.toNat = (Nat.digitChar (c.toNat - 48)).toNat ∨ _
    rw [Nat.toNat_digitChar_of_lt_ten (by omega)]
    exact .inl (by omega)
  · change 97 ≤ c.toNat ∧ c.toNat ≤ 122 at hlower
    change c.toNat - 97 + 10 < base at hlt
    change c.toNat = (Nat.digitChar (c.toNat - 97 + 10)).toNat ∨ _
    rw [toNat_digitChar_of_ten_le (by omega) (by omega)]
    exact .inl (by omega)
  · change 65 ≤ c.toNat ∧ c.toNat ≤ 90 at hupper
    change c.toNat - 65 + 10 < base at hlt
    change _ ∨ c.toNat = (Nat.digitChar (c.toNat - 65 + 10)).toUpper.toNat
    rw [toNat_toUpper_digitChar_of_ten_le (by omega) (by omega)]
    exact .inr (by omega)
  · exact absurd hlt (Nat.lt_irrefl base)

/-- The value that is found for a character is that of the digit it is. -/
theorem digitValue?_eq_some_iff (hbase : base ≤ 16) :
    digitValue? base c = some d ↔ IsDigit base c d := by
  refine ⟨isDigit_of_digitValue?_eq_some hbase, ?_⟩
  rintro ⟨hlt, rfl | rfl⟩
  all_goals
    have : d < 16 := by omega
    interval_cases d <;> simp [digitValue?, hlt, Nat.digitChar]

theorem not_isDigit_plus (hbase : base ≤ 16) : ¬ IsDigit base '+' d := by
  rw [← digitValue?_eq_some_iff hbase]
  simp [digitValue?]

/-! ## Rows of digits -/

/-- The characters are digits which, behind those of `value`, make up the number `n`. -/
def Continues (base value : Nat) (chars : List Char) (n : Nat) : Prop :=
  ∃ digits, List.Forall₂ (IsDigit base) chars digits ∧
    n = Nat.ofDigits base (value :: digits).reverse

namespace Continues

theorem nil_iff : Continues base value [] n ↔ n = value := by
  simp [Continues]

/-- One more digit makes the number `base` times as large and adds its value. -/
theorem cons_iff :
    Continues base value (c :: rest) n ↔
      ∃ d, IsDigit base c d ∧ Continues base (value * base + d) rest n := by
  have hvalue (d : Nat) (digits : List Nat) :
      Nat.ofDigits base (value :: d :: digits).reverse =
        Nat.ofDigits base ((value * base + d) :: digits).reverse := by
    simp only [Nat.ofDigits_reverse_cons, List.length_cons]
    ring
  constructor
  · rintro ⟨_, hdigits, rfl⟩
    cases hdigits with
    | cons hd hdigits => exact ⟨_, hd, _, hdigits, hvalue _ _⟩
  · rintro ⟨d, hd, digits, hdigits, rfl⟩
    exact ⟨d :: digits, .cons hd hdigits, (hvalue d digits).symm⟩

theorem le (h : Continues base value chars n) : value ≤ n := by
  induction chars generalizing value with
  | nil => exact (nil_iff.1 h).ge
  | cons c rest ih =>
    obtain ⟨d, hd, h⟩ := cons_iff.1 h
    have hbase : 0 < base := Nat.zero_lt_of_lt hd.1
    calc value ≤ value * base := Nat.le_mul_of_pos_right value hbase
      _ ≤ value * base + d := Nat.le_add_right _ _
      _ ≤ n := ih h

end Continues

/-- Digits at the front of the characters make up, behind those of `value`, a number that is larger
than `limit`. -/
def Outgrows (base limit value : Nat) (chars : List Char) : Prop :=
  ∃ front n, front <+: chars ∧ Continues base value front n ∧ limit < n

namespace Outgrows

theorem of_lt (h : limit < value) : Outgrows base limit value chars :=
  ⟨[], value, List.nil_prefix, Continues.nil_iff.2 rfl, h⟩

theorem nil_iff : Outgrows base limit value [] ↔ limit < value := by
  refine ⟨?_, of_lt⟩
  rintro ⟨_, n, hfront, hn, hlt⟩
  rw [List.prefix_nil.1 hfront, Continues.nil_iff] at hn
  exact hn ▸ hlt

theorem cons_iff (hvalue : value ≤ limit) :
    Outgrows base limit value (c :: rest) ↔
      ∃ d, IsDigit base c d ∧ Outgrows base limit (value * base + d) rest := by
  constructor
  · rintro ⟨_, n, hstart, hn, hlt⟩
    obtain rfl | ⟨front, rfl, hfront⟩ := List.prefix_cons_iff.1 hstart
    · rw [Continues.nil_iff] at hn
      omega
    · obtain ⟨d, hd, hn⟩ := Continues.cons_iff.1 hn
      exact ⟨d, hd, front, n, hfront, hn, hlt⟩
  · rintro ⟨d, hd, front, n, hfront, hn, hlt⟩
    exact ⟨c :: front, n, (List.prefix_cons_inj c).2 hfront, Continues.cons_iff.2 ⟨d, hd, hn⟩, hlt⟩

end Outgrows

/-! ## Reading digits -/

theorem readDigits_eq_ok_iff (hbase : base ≤ 16) (hvalue : value ≤ limit) :
    readDigits base limit value chars = .ok n ↔ Continues base value chars n ∧ n ≤ limit := by
  induction chars generalizing value with
  | nil =>
    rw [readDigits, Continues.nil_iff, Except.ok.injEq]
    exact ⟨fun h => ⟨h.symm, h ▸ hvalue⟩, fun h => h.1.symm⟩
  | cons c rest ih =>
    simp only [readDigits, Continues.cons_iff, ← digitValue?_eq_some_iff hbase]
    cases hd : digitValue? base c with
    | none => simp
    | some d =>
      simp only [Option.some.injEq, exists_eq_left']
      split
      next hfits => exact ih hfits
      next hlarge =>
        refine iff_of_false (by simp) ?_
        rintro ⟨h, hn⟩
        exact hlarge (h.le.trans hn)

/-- The number is too large at a digit that is reached. -/
theorem readDigits_eq_overflow_iff (hbase : base ≤ 16) (hvalue : value ≤ limit) :
    readDigits base limit value chars = .error .overflow ↔ Outgrows base limit value chars := by
  induction chars generalizing value with
  | nil => simpa [readDigits, Outgrows.nil_iff] using hvalue
  | cons c rest ih =>
    simp only [readDigits, Outgrows.cons_iff hvalue, ← digitValue?_eq_some_iff hbase]
    cases hd : digitValue? base c with
    | none => simp
    | some d =>
      simp only [Option.some.injEq, exists_eq_left']
      split
      next hfits => exact ih hfits
      next hlarge => exact iff_of_true rfl (.of_lt (Nat.lt_of_not_le hlarge))

theorem readDigits_ne_empty : readDigits base limit value chars ≠ .error .empty := by
  induction chars generalizing value with
  | nil => simp [readDigits]
  | cons c rest ih =>
    rw [readDigits]
    split
    · simp
    · split
      · exact ih
      · simp

/-! ## Numerals -/

/-- The characters are digits, the first of the greatest weight, and write the number `n`. -/
def Writes (base : Nat) (chars : List Char) (n : Nat) : Prop :=
  ∃ digits, List.Forall₂ (IsDigit base) chars digits ∧ n = Nat.ofDigits base digits.reverse

/-- An unsigned number in a text: an optional plus sign, then at least one digit. -/
inductive Numeral (base : Nat) : List Char → Nat → Prop
  | plain {digits : List Char} {n : Nat} :
    digits ≠ [] → Writes base digits n → Numeral base digits n
  | signed {digits : List Char} {n : Nat} :
    digits ≠ [] → Writes base digits n → Numeral base ('+' :: digits) n

/-- A numeral in front of the characters writes a number that is larger than `limit`. -/
def Exceeds (base limit : Nat) (chars : List Char) : Prop :=
  ∃ front n, front <+: chars ∧ Numeral base front n ∧ limit < n

theorem continues_zero_iff : Continues base 0 chars n ↔ Writes base chars n := by
  simp only [Continues, Writes, Nat.ofDigits_reverse_zero_cons]

theorem Writes.ne_nil (h : Writes base chars n) (hn : 0 < n) : chars ≠ [] := by
  rintro rfl
  rw [← continues_zero_iff, Continues.nil_iff] at h
  omega

/-- The characters without one plus sign in front. -/
def unsigned : List Char → List Char
  | '+' :: rest => rest
  | chars => chars

theorem unsigned_cons_of_ne (hc : c ≠ '+') : unsigned (c :: rest) = c :: rest := by
  unfold unsigned
  split
  next heq => exact absurd (List.cons.inj heq).1 hc
  next => rfl

/-- There is a plus sign in front, or nothing to leave out. -/
theorem plus_or_unsigned (chars : List Char) :
    (∃ rest, chars = '+' :: rest) ∨ unsigned chars = chars := by
  cases chars with
  | nil => exact .inr rfl
  | cons c rest =>
    by_cases hc : c = '+'
    · exact .inl ⟨rest, by rw [hc]⟩
    · exact .inr (unsigned_cons_of_ne hc)

theorem unsigned_append {front : List Char} (h : front ≠ []) (back : List Char) :
    unsigned (front ++ back) = unsigned front ++ back := by
  obtain ⟨c, rest, rfl⟩ := List.exists_cons_of_ne_nil h
  by_cases hc : c = '+'
  · rw [hc]
    rfl
  · rw [List.cons_append, unsigned_cons_of_ne hc, unsigned_cons_of_ne hc, List.cons_append]

theorem Numeral.iff_unsigned (hbase : base ≤ 16) :
    Numeral base chars n ↔ unsigned chars ≠ [] ∧ Writes base (unsigned chars) n := by
  constructor
  · intro h
    cases h with
    | plain hne hn =>
      obtain ⟨rest, rfl⟩ | hsame := plus_or_unsigned chars
      · -- digits do not begin with a sign
        obtain ⟨_, hdigits, -⟩ := hn
        cases hdigits with
        | cons hd => exact absurd hd (not_isDigit_plus hbase)
      · rw [hsame]
        exact ⟨hne, hn⟩
    | signed hne hn => exact ⟨hne, hn⟩
  · rintro ⟨hne, hn⟩
    obtain ⟨rest, rfl⟩ | hsame := plus_or_unsigned chars
    · exact .signed hne hn
    · rw [hsame] at hne hn
      exact .plain hne hn

theorem Numeral.ne_nil (h : Numeral base chars n) : chars ≠ [] := by
  cases h with
  | plain hne => exact hne
  | signed => exact List.cons_ne_nil _ _

theorem Numeral.digit_of_mem (h : Numeral base chars n) (hc : c ∈ chars) :
    c = '+' ∨ ∃ d, IsDigit base c d := by
  have hdigit {digits : List Char} (hn : Writes base digits n) (hc : c ∈ digits) :
      ∃ d, IsDigit base c d := by
    obtain ⟨values, hvalues, -⟩ := hn
    obtain ⟨d, -, hd⟩ := exists_mem_of_forall₂ hvalues hc
    exact ⟨d, hd⟩
  cases h with
  | plain _ hn => exact .inr (hdigit hn hc)
  | signed _ hn => exact (List.mem_cons.1 hc).imp_right (hdigit hn)

theorem Exceeds.iff_unsigned (hbase : base ≤ 16) :
    Exceeds base limit chars ↔ Outgrows base limit 0 (unsigned chars) := by
  simp only [Exceeds, Outgrows, Numeral.iff_unsigned hbase, continues_zero_iff]
  constructor
  · rintro ⟨front, n, ⟨back, rfl⟩, ⟨hne, hn⟩, hlt⟩
    have hfront : front ≠ [] := by
      rintro rfl
      exact hne rfl
    refine ⟨unsigned front, n, ?_, hn, hlt⟩
    rw [unsigned_append hfront]
    exact List.prefix_append _ back
  · rintro ⟨front, n, hstart, hn, hlt⟩
    have hne : front ≠ [] := hn.ne_nil (Nat.zero_lt_of_lt hlt)
    obtain ⟨rest, rfl⟩ | hsame := plus_or_unsigned chars
    · exact ⟨'+' :: front, n, (List.prefix_cons_inj '+').2 hstart, ⟨hne, hn⟩, hlt⟩
    · rw [hsame] at hstart
      obtain ⟨back, rfl⟩ := hstart
      -- the characters have no sign to leave out, so neither does their front
      have hfront : unsigned front = front := by
        rw [unsigned_append hne] at hsame
        exact List.append_cancel_right hsame
      rw [← hfront] at hne hn
      exact ⟨front, n, List.prefix_append front back, ⟨hne, hn⟩, hlt⟩

/-! ## Reading numerals -/

theorem readUnsigned_eq (h : chars ≠ []) :
    readUnsigned base limit chars =
      if unsigned chars = [] then .error .invalidDigit
      else readDigits base limit 0 (unsigned chars) := by
  unfold readUnsigned
  split
  · exact absurd rfl h
  · rfl
  next digits hne =>
    rw [if_neg]
    · rfl
    · rintro rfl
      exact hne rfl
  next hplus =>
    obtain ⟨rest, rfl⟩ | hsame := plus_or_unsigned chars
    · exact absurd rfl (hplus rest)
    · rw [hsame, if_neg h]

theorem readUnsigned_eq_ok_iff (hbase : base ≤ 16) :
    readUnsigned base limit chars = .ok n ↔ Numeral base chars n ∧ n ≤ limit := by
  rw [Numeral.iff_unsigned hbase]
  obtain rfl | hne := eq_or_ne chars []
  · simp [readUnsigned, unsigned]
  · rw [readUnsigned_eq hne]
    split
    next hnone => simp [hnone]
    next hsome =>
      rw [readDigits_eq_ok_iff hbase (Nat.zero_le limit), continues_zero_iff]
      simp only [ne_eq, hsome, not_false_eq_true, true_and]

/-- A text is the numeral of one number only. -/
theorem Numeral.unique {n' : Nat} (hbase : base ≤ 16) (h : Numeral base chars n)
    (h' : Numeral base chars n') : n' = n := by
  have hn := (readUnsigned_eq_ok_iff hbase).2 ⟨h, Nat.le_max_left n n'⟩
  have hn' := (readUnsigned_eq_ok_iff hbase).2 ⟨h', Nat.le_max_right n n'⟩
  exact Except.ok.inj (hn'.symm.trans hn)

theorem readUnsigned_eq_empty_iff : readUnsigned base limit chars = .error .empty ↔ chars = [] := by
  obtain rfl | hne := eq_or_ne chars []
  · simp [readUnsigned]
  · rw [readUnsigned_eq hne]
    refine iff_of_false ?_ hne
    split
    · simp
    · exact readDigits_ne_empty

theorem readUnsigned_eq_overflow_iff (hbase : base ≤ 16) :
    readUnsigned base limit chars = .error .overflow ↔ Exceeds base limit chars := by
  rw [Exceeds.iff_unsigned hbase]
  obtain rfl | hne := eq_or_ne chars []
  · simp [readUnsigned, unsigned, Outgrows.nil_iff]
  · rw [readUnsigned_eq hne]
    split
    next hnone => simp [hnone, Outgrows.nil_iff]
    next => exact readDigits_eq_overflow_iff hbase (Nat.zero_le limit)

/-! ## Printed digits -/

theorem Writes.concat (h : Writes base chars n) (hd : IsDigit base c d) :
    Writes base (chars ++ [c]) (d + base * n) := by
  obtain ⟨digits, hdigits, rfl⟩ := h
  refine ⟨digits ++ [d], List.rel_append hdigits (.cons hd .nil), ?_⟩
  rw [List.reverse_append, List.reverse_singleton, List.singleton_append, Nat.ofDigits_cons]

theorem Writes.zeros (hbase : 0 < base) (h : Writes base chars n) (count : Nat) :
    Writes base (List.replicate count '0' ++ chars) n := by
  induction count with
  | zero => exact h
  | succ count ih =>
    obtain ⟨digits, hdigits, rfl⟩ := ih
    refine ⟨0 :: digits, .cons (isDigit_digitChar hbase) hdigits, ?_⟩
    rw [Nat.ofDigits_reverse_zero_cons]

theorem writes_toDigits (hbase : 1 < base) (n : Nat) : Writes base (Nat.toDigits base n) n := by
  induction n using Nat.strongRecOn with
  | ind n ih =>
    obtain hlt | hle := Nat.lt_or_ge n base
    · rw [Nat.toDigits_of_lt_base hlt]
      exact ⟨[n], .cons (isDigit_digitChar hlt) .nil, by simp⟩
    · have hpos : 0 < base := by omega
      rw [Nat.toDigits_of_base_le hbase hle]
      have h := (ih (n / base) (Nat.div_lt_self (by omega) hbase)).concat
        (isDigit_digitChar (Nat.mod_lt n hpos))
      rwa [Nat.mod_add_div] at h

theorem toList_hexDigits (width n : Nat) : (hexDigits width n).toList =
    List.replicate (width - (Nat.toDigits 16 n).length) '0' ++ Nat.toDigits 16 n := by
  simp [hexDigits, padLeft]

theorem writes_hexDigits (width n : Nat) : Writes 16 (hexDigits width n).toList n := by
  rw [toList_hexDigits]
  exact (writes_toDigits (by decide) n).zeros (by decide) _

theorem length_hexDigits {width n : Nat} (hwidth : 0 < width) (h : n < 16 ^ width) :
    (hexDigits width n).toList.length = width := by
  have hle := Nat.toDigits_length 16 n width hwidth h
  rw [toList_hexDigits, List.length_append, List.length_replicate, Nat.sub_add_cancel hle]

theorem numeral_hexDigits (width n : Nat) : Numeral 16 (hexDigits width n).toList n := by
  refine .plain ?_ (writes_hexDigits width n)
  rw [toList_hexDigits]
  exact List.append_ne_nil_of_right_ne_nil _ Nat.toDigits_ne_nil

end CodeView.Text
