import CodeView.CommandLine.Session
import CodeView.Proofs.Executable.Translation
import CodeView.Proofs.Text.Blank
import CodeView.Proofs.Text.Number

/-!
# Address text

`Spells` is the grammar of addresses. `ofText_iff_spells` says that the texts which spell a number
of 64 bits are read as that number, which of the three errors the others give, and that every
address is read back from the text which is printed for it.
-/

namespace CodeView

open Text (Numeral Exceeds IsDigit Trimmed isBlank trim readUnsigned)

namespace Address

variable {mark digits chars before after core : List Char} {base n d : Nat} {c : Char}
  {text : String}

/-! ## The grammar -/

/-- What stands in front of hexadecimal digits. -/
def IsMark (mark : List Char) : Prop :=
  mark = ['0', 'x'] ∨ mark = ['0', 'X']

/-- The characters spell `n`: a hexadecimal numeral behind its mark, or a decimal numeral. -/
inductive Spells : List Char → Nat → Prop
  | hexadecimal {mark digits : List Char} {n : Nat} :
    IsMark mark → Numeral 16 digits n → Spells (mark ++ digits) n
  | decimal {digits : List Char} {n : Nat} : Numeral 10 digits n → Spells digits n

/-- There is nothing to read, behind a mark if there is one. -/
def Bare (chars : List Char) : Prop :=
  chars = [] ∨ IsMark chars

/-- What is read up to some character spells a number of more than 64 bits. -/
def Overflows (chars : List Char) : Prop :=
  ∃ front n, front <+: chars ∧ Spells front n ∧ UInt64.size ≤ n

/-! ## Mark and digits -/

/-- The base which is announced at the front of the characters, and what stands behind. -/
inductive Parts : List Char → Nat → List Char → Prop
  | hexadecimal {mark digits : List Char} : IsMark mark → Parts (mark ++ digits) 16 digits
  | decimal {chars : List Char} :
    (∀ mark digits, IsMark mark → chars ≠ mark ++ digits) → Parts chars 10 chars

theorem exists_parts (chars : List Char) : ∃ base digits, Parts chars base digits := by
  by_cases h : ∃ mark digits, IsMark mark ∧ chars = mark ++ digits
  · obtain ⟨mark, digits, hmark, rfl⟩ := h
    exact ⟨16, digits, .hexadecimal hmark⟩
  · exact ⟨10, chars, .decimal fun mark digits hmark hchars => h ⟨mark, digits, hmark, hchars⟩⟩

namespace IsMark

theorem length_eq (hmark : IsMark mark) : mark.length = 2 := by
  obtain rfl | rfl := hmark <;> rfl

theorem append_inj {mark' digits' : List Char} (hmark : IsMark mark) (hmark' : IsMark mark')
    (h : mark ++ digits = mark' ++ digits') : mark = mark' ∧ digits = digits' :=
  List.append_inj h (hmark.length_eq.trans hmark'.length_eq.symm)

/-- Behind the zero of a mark is a letter that a decimal numeral cannot hold. -/
theorem exists_letter (hmark : IsMark mark) :
    ∃ x, mark = ['0', x] ∧ ∀ {chars n}, Numeral 10 chars n → x ∉ chars := by
  have hletter {x : Char} (hplus : x ≠ '+') (hx : Text.digitValue? 10 x = none) {chars : List Char}
      {n : Nat} (h : Numeral 10 chars n) : x ∉ chars := by
    intro hmem
    obtain heq | ⟨d, hd⟩ := h.digit_of_mem hmem
    · exact hplus heq
    · rw [← Text.digitValue?_eq_some_iff (by decide), hx] at hd
      cases hd
  obtain rfl | rfl := hmark
  · exact ⟨'x', rfl, hletter (by decide) rfl⟩
  · exact ⟨'X', rfl, hletter (by decide) rfl⟩

end IsMark

/-- The zero of a mark is all there is of a decimal numeral in front. -/
theorem eq_zero_of_numeral_prefix (hmark : IsMark mark) (hstart : chars <+: mark ++ digits)
    (h : Numeral 10 chars n) : chars = ['0'] ∧ n = 0 := by
  obtain ⟨x, rfl, hletter⟩ := hmark.exists_letter
  obtain rfl | ⟨_, rfl, hrest⟩ := List.prefix_cons_iff.1 hstart
  · exact absurd rfl h.ne_nil
  · obtain rfl | ⟨rest, rfl, -⟩ := List.prefix_cons_iff.1 hrest
    · have hzero : readUnsigned 10 0 ['0'] = .ok 0 := rfl
      exact ⟨rfl, ((Text.readUnsigned_eq_ok_iff (by decide)).1 hzero).1.unique (by decide) h⟩
    · exact absurd (List.mem_cons_of_mem _ List.mem_cons_self) (hletter h)

theorem spells_iff :
    Spells chars n ↔
      (∃ mark digits, IsMark mark ∧ chars = mark ++ digits ∧ Numeral 16 digits n) ∨
        Numeral 10 chars n := by
  constructor
  · rintro (⟨hmark, hn⟩ | hn)
    · exact .inl ⟨_, _, hmark, rfl, hn⟩
    · exact .inr hn
  · rintro (⟨mark, digits, hmark, rfl, hn⟩ | hn)
    · exact .hexadecimal hmark hn
    · exact .decimal hn

namespace Parts

theorem base_le (h : Parts chars base digits) : base ≤ 16 := by
  cases h <;> decide

theorem ofText_eq (h : Parts (trim text.toList) base digits) :
    ofText text = (readUnsigned base (UInt64.size - 1) digits).map fun n => ⟨UInt64.ofNat n⟩ := by
  unfold ofText
  generalize trim text.toList = chars at h
  cases h with
  | hexadecimal hmark => obtain rfl | rfl := hmark <;> rfl
  | decimal hnone =>
    split
    next rest => exact absurd rfl (hnone ['0', 'x'] rest (.inl rfl))
    next rest => exact absurd rfl (hnone ['0', 'X'] rest (.inr rfl))
    next => rfl

theorem bare_iff (h : Parts chars base digits) : Bare chars ↔ digits = [] := by
  cases h with
  | hexadecimal hmark =>
    constructor
    · rintro (hnil | hmark')
      · exact (List.append_eq_nil_iff.1 hnil).2
      · exact ((hmark.append_inj hmark' (by rw [List.append_nil])).2 : digits = [])
    · rintro rfl
      rw [List.append_nil]
      exact .inr hmark
  | decimal hnone =>
    refine ⟨?_, .inl⟩
    rintro (hnil | hmark)
    · exact hnil
    · exact absurd (List.append_nil _).symm (hnone _ [] hmark)

theorem spells_iff (h : Parts chars base digits) : Spells chars n ↔ Numeral base digits n := by
  rw [Address.spells_iff]
  cases h with
  | hexadecimal hmark =>
    constructor
    · rintro (⟨mark', digits', hmark', heq, hn⟩ | hn)
      · exact (hmark.append_inj hmark' heq).2 ▸ hn
      · obtain ⟨heq, -⟩ := eq_zero_of_numeral_prefix hmark List.prefix_rfl hn
        have hlength := congrArg List.length heq
        rw [List.length_append, hmark.length_eq, List.length_singleton] at hlength
        omega
    · exact fun hn => .inl ⟨_, _, hmark, rfl, hn⟩
  | decimal hnone =>
    refine ⟨?_, .inr⟩
    rintro (⟨mark, digits, hmark, heq, -⟩ | hn)
    · exact absurd heq (hnone mark digits hmark)
    · exact hn

theorem overflows_iff (h : Parts chars base digits) :
    Overflows chars ↔ Exceeds base (UInt64.size - 1) digits := by
  have hlimit (n : Nat) : UInt64.size ≤ n ↔ UInt64.size - 1 < n := by
    have : UInt64.size = 18446744073709551616 := rfl
    omega
  simp only [Overflows, Exceeds, hlimit, Address.spells_iff]
  cases h with
  | hexadecimal hmark =>
    constructor
    -- what is too large begins with the mark too: without it there is no more than a zero
    · rintro ⟨_, n, hstart, ⟨mark', front, hmark', rfl, hn⟩ | hn, hlt⟩
      · obtain ⟨back, hback⟩ := hstart
        rw [List.append_assoc] at hback
        obtain ⟨-, rfl⟩ := hmark'.append_inj hmark hback
        exact ⟨front, n, List.prefix_append front back, hn, hlt⟩
      · obtain ⟨-, rfl⟩ := eq_zero_of_numeral_prefix hmark hstart hn
        exact absurd hlt (Nat.not_lt_zero _)
    · rintro ⟨front, n, hstart, hn, hlt⟩
      exact ⟨_, n, (List.prefix_append_right_inj _).2 hstart,
        .inl ⟨_, front, hmark, rfl, hn⟩, hlt⟩
  | decimal hnone =>
    constructor
    · rintro ⟨front, n, hstart, ⟨mark, digits, hmark, rfl, -⟩ | hn, hlt⟩
      · obtain ⟨back, rfl⟩ := hstart
        exact absurd (List.append_assoc mark digits back) (hnone mark _ hmark)
      · exact ⟨front, n, hstart, hn, hlt⟩
    · rintro ⟨front, n, hstart, hn, hlt⟩
      exact ⟨front, n, hstart, .inr hn, hlt⟩

end Parts

/-! ## What a text is read as -/

theorem ofText_eq_ok_iff {a : Address} :
    ofText text = .ok a ↔ Spells (trim text.toList) a.value.toNat := by
  obtain ⟨base, digits, hparts⟩ := exists_parts (trim text.toList)
  have hread {n : Nat} : readUnsigned base (UInt64.size - 1) digits = .ok n ↔
      Numeral base digits n ∧ n ≤ UInt64.size - 1 := Text.readUnsigned_eq_ok_iff hparts.base_le
  have hbound : a.value.toNat ≤ UInt64.size - 1 := Nat.le_sub_one_of_lt a.value.toNat_lt_size
  rw [hparts.ofText_eq, hparts.spells_iff]
  constructor
  · intro h
    cases hn : readUnsigned base (UInt64.size - 1) digits with
    | error e =>
      rw [hn] at h
      cases h
    | ok n =>
      rw [hn] at h
      cases h
      obtain ⟨hnumeral, hle⟩ := hread.1 hn
      rwa [UInt64.toNat_ofNat_of_lt' (Nat.lt_of_le_of_lt hle (by decide))]
  · intro h
    rw [hread.2 ⟨h, hbound⟩, Except.map, UInt64.ofNat_toNat]

theorem ofText_eq_error_iff {e : Text.NumberError} (h : Parts (trim text.toList) base digits) :
    ofText text = .error e ↔ readUnsigned base (UInt64.size - 1) digits = .error e := by
  rw [h.ofText_eq]
  cases readUnsigned base (UInt64.size - 1) digits <;> simp [Except.map]

theorem ofText_eq_empty_iff : ofText text = .error .empty ↔ Bare (trim text.toList) := by
  obtain ⟨base, digits, hparts⟩ := exists_parts (trim text.toList)
  rw [ofText_eq_error_iff hparts, Text.readUnsigned_eq_empty_iff, hparts.bare_iff]

theorem ofText_eq_overflow_iff : ofText text = .error .overflow ↔ Overflows (trim text.toList) := by
  obtain ⟨base, digits, hparts⟩ := exists_parts (trim text.toList)
  rw [ofText_eq_error_iff hparts, Text.readUnsigned_eq_overflow_iff hparts.base_le,
    hparts.overflows_iff]

/-- A character that is no digit is reported where nothing else can be said of the text. -/
theorem ofText_eq_invalidDigit_iff :
    ofText text = .error .invalidDigit ↔
      (∀ n, ¬ Spells (trim text.toList) n) ∧ ¬ Bare (trim text.toList) ∧
        ¬ Overflows (trim text.toList) := by
  rw [← ofText_eq_empty_iff, ← ofText_eq_overflow_iff]
  constructor
  · intro h
    refine ⟨fun n hn => ?_, by simp [h], by simp [h]⟩
    obtain hlt | hle := Nat.lt_or_ge n UInt64.size
    · have hok : ofText text = .ok ⟨UInt64.ofNat n⟩ := by
        rw [ofText_eq_ok_iff, UInt64.toNat_ofNat_of_lt' hlt]
        exact hn
      rw [h] at hok
      cases hok
    -- a numeral that is too large as a whole is a case of the overflow
    · have hoverflow : ofText text = .error .overflow :=
        ofText_eq_overflow_iff.2 ⟨_, n, List.prefix_rfl, hn, hle⟩
      rw [h] at hoverflow
      cases hoverflow
  · rintro ⟨hspells, hempty, hoverflow⟩
    cases h : ofText text with
    | ok a => exact absurd (ofText_eq_ok_iff.1 h) (hspells _)
    | error e =>
      cases e with
      | empty => exact absurd h hempty
      | overflow => exact absurd h hoverflow
      | invalidDigit => rfl

/-! ## What is printed -/

theorem spells_text (a : Address) : Spells a.text.toList a.value.toNat := by
  have htext : a.text.toList = ['0', 'x'] ++ (Text.hexDigits 8 a.value.toNat).toList :=
    String.toList_append
  rw [htext]
  exact .hexadecimal (.inl rfl) (Text.numeral_hexDigits 8 a.value.toNat)

theorem not_blank_of_isDigit (hbase : base ≤ 16) (h : IsDigit base c d) : ¬ isBlank c := by
  obtain ⟨hlt, rfl | rfl⟩ := h
  all_goals
    have hd : d < 16 := by omega
    interval_cases d <;> decide

theorem Spells.not_blank (h : Spells chars n) : ∀ c ∈ chars, ¬ isBlank c := by
  have hnumeral {base : Nat} {digits : List Char} (hbase : base ≤ 16) (hn : Numeral base digits n) :
      ∀ c ∈ digits, ¬ isBlank c := by
    intro c hc
    obtain rfl | ⟨d, hd⟩ := hn.digit_of_mem hc
    · decide
    · exact not_blank_of_isDigit hbase hd
  cases h with
  | hexadecimal hmark hn =>
    refine List.forall_mem_append.2 ⟨?_, hnumeral (by decide) hn⟩
    obtain rfl | rfl := hmark <;> simp [isBlank]
  | decimal hn => exact hnumeral (by decide) hn

/-- White space around what is spelled is removed and nothing else. -/
theorem Spells.trimmed (h : Spells core n) (hbefore : ∀ c ∈ before, isBlank c)
    (hafter : ∀ c ∈ after, isBlank c) : Trimmed (before ++ (core ++ after)) core where
  around := ⟨before, after, rfl, hbefore, hafter⟩
  first c hc := h.not_blank c (List.mem_of_mem_head? hc)
  last c hc := h.not_blank c (List.mem_of_getLast? hc)

/-- A printed address is read back, also with white space around it. -/
theorem ofText_padded (a : Address) {before after : String}
    (hbefore : ∀ c ∈ before.toList, isBlank c) (hafter : ∀ c ∈ after.toList, isBlank c) :
    ofText (before ++ (a.text ++ after)) = .ok a := by
  rw [ofText_eq_ok_iff, String.toList_append, String.toList_append,
    Text.trim_eq_iff.2 ((spells_text a).trimmed hbefore hafter)]
  exact spells_text a

theorem ofText_text (a : Address) : ofText a.text = .ok a := by
  have h : ofText ("" ++ (a.text ++ "")) = .ok a := ofText_padded a (by simp) (by simp)
  rwa [String.append_empty, String.empty_append] at h

theorem text_injective : Function.Injective Address.text := by
  intro a b h
  have hread := ofText_text a
  rw [h, ofText_text b] at hread
  exact (Except.ok.inj hread).symm

end Address

/-! ## On the command line -/

namespace CommandLine

theorem mapM_eq_ok_of_forall₂ {α β ε : Type} {f : α → Except ε β} {items : List α}
    {results : List β} (h : List.Forall₂ (fun item result => f item = .ok result) items results) :
    items.mapM f = .ok results := by
  induction h with
  | nil => rfl
  | cons hitem _ ih =>
    rw [List.mapM_cons, hitem, ih]
    rfl

/-- Behind a path, a look-up takes every operand for an address. -/
theorem commandOf_lookup {r : Reading} {path : String} {texts : List String}
    {addresses : List Address} (hbase : r.base?.isSome → r.raw) (hpath : path ≠ "")
    (hoperands : r.operands.toList = path :: texts) (hsome : texts ≠ [])
    (htexts : List.Forall₂ (fun text a => Address.ofText text = .ok a) texts addresses) :
    commandOf .lookup r =
      .ok (.lookup ⟨path, r.raw, r.base?.getD 0, r.strict⟩ addresses r.offset) := by
  obtain ⟨first, rest, rfl⟩ := List.exists_cons_of_ne_nil hsome
  have hguard : (r.base?.isSome && !r.raw) = false := by
    cases hsome : r.base?.isSome
    · rfl
    · rw [hbase hsome]
      rfl
  have hempty : path.isEmpty = false := by
    simpa using hpath
  rw [commandOf, hguard, hoperands]
  simp only [hempty]
  rw [mapM_eq_ok_of_forall₂]
  · rfl
  · refine htexts.imp fun text a h => ?_
    rw [h]
    rfl

/-- What is printed for a line is an address and the end of the line, so it is read as one. -/
theorem ofText_report_line {exe : Executable} {input : Input} {file : String}
    {line : UInt16} {a : Address} (h : lineAddress exe input.raw file line = some a) :
    Address.ofText ((Command.line input file line).report exe).stdout = .ok a := by
  have hstdout : ((Command.line input file line).report exe).stdout =
      "" ++ (a.text ++ "\n") := by
    rw [Command.report, h, String.empty_append]
    rfl
  rw [hstdout]
  exact Address.ofText_padded a (by simp) (by simp [isBlank])

end CommandLine

namespace Address

/-- **Address text is read by its grammar and what is printed is read back.** A text is read as an
address if it spells a number of 64 bits once the white space around it is removed. Otherwise there
is nothing to read, or what is read up to some character is already too large, or else a character
is no digit. Every address is read back from its text, also with white space around it, no two have
the same text, and what is printed for a line can be looked up. -/
theorem ofText_iff_spells :
    (∀ text a, ofText text = .ok a ↔ Spells (trim text.toList) a.value.toNat) ∧
    (∀ text, ofText text = .error .empty ↔ Bare (trim text.toList)) ∧
    (∀ text, ofText text = .error .overflow ↔ Overflows (trim text.toList)) ∧
    (∀ text, ofText text = .error .invalidDigit ↔
      (∀ n, ¬ Spells (trim text.toList) n) ∧ ¬ Bare (trim text.toList) ∧
        ¬ Overflows (trim text.toList)) ∧
    (∀ a : Address, ofText a.text = .ok a) ∧
    (∀ (a : Address) (before after : String), (∀ c ∈ before.toList, isBlank c) →
      (∀ c ∈ after.toList, isBlank c) → ofText (before ++ (a.text ++ after)) = .ok a) ∧
    Function.Injective Address.text ∧
    ∀ exe input file line a, CommandLine.lineAddress exe input.raw file line = some a →
      ∀ (r : CommandLine.Reading) path, (r.base?.isSome → r.raw) → path ≠ "" →
        r.operands = #[path, ((CommandLine.Command.line input file line).report exe).stdout] →
        CommandLine.commandOf .lookup r =
          .ok (.lookup ⟨path, r.raw, r.base?.getD 0, r.strict⟩ [a] r.offset) := by
  refine ⟨fun _ _ => ofText_eq_ok_iff, fun _ => ofText_eq_empty_iff,
    fun _ => ofText_eq_overflow_iff, fun _ => ofText_eq_invalidDigit_iff, ofText_text,
    fun a _ _ => ofText_padded a, text_injective, ?_⟩
  intro exe input file line a hline r path hbase hpath hoperands
  refine CommandLine.commandOf_lookup hbase hpath ?_ (List.cons_ne_nil _ _)
    (.cons (CommandLine.ofText_report_line hline) .nil)
  rw [hoperands]

/-- The arguments of a look-up among the code offsets of a bare blob. -/
def offsetReading (operands : Array String) : CommandLine.Reading :=
  { CommandLine.Reading.empty with raw := true, base? := some 64, offset := true, operands }

theorem ofText_iff_spells_samples :
    ofText "\t0X+0fF " = .ok ⟨255⟩ ∧
      ofText "0x\n" = .error .empty ∧
      ofText "18446744073709551616z" = .error .overflow ∧
      ofText (" " ++ ((⟨4096⟩ : Address).text ++ "\n")) = .ok ⟨4096⟩ ∧
      CommandLine.commandOf .lookup (offsetReading #["a.cv", ((CommandLine.Command.line
          ⟨"a.cv", true, 64, false⟩ "a.c" 2).report Executable.highExecutable).stdout]) =
        .ok (.lookup ⟨"a.cv", true, 64, false⟩ [⟨0xfff⟩] true) := by
  obtain ⟨ok, empty, overflow, -, -, padded, -, lookup⟩ := ofText_iff_spells
  have lower : IsDigit 16 'f' 15 := ⟨by decide, .inl rfl⟩
  have upper : IsDigit 16 'F' 15 := ⟨by decide, .inr rfl⟩
  have recorded : (Executable.highExecutable.resolver.resolveLine "a.c" 2).1 = some 0xfff := by
    have scan : Executable.highExecutable.resolver.scanLine "a.c" 2 = some 0xfff := by
      decide +kernel
    exact ((Resolver.serves_ofModules _).resolveLine_eq_scanLine _ _).trans scan
  refine ⟨(ok _ _).2 ?_, (empty _).2 (.inr (.inl ?_)), (overflow _).2 ?_,
    padded _ _ _ (by simp [isBlank]) (by simp [isBlank]),
    lookup _ _ _ _ _ ?_ _ _ (by decide) (by decide) rfl⟩
  · have htrim : trim "\t0X+0fF ".toList = ['0', 'X'] ++ ['+', '0', 'f', 'F'] := by decide
    rw [htrim]
    refine .hexadecimal (.inr rfl) (.signed (by decide) ⟨[0, 15, 15], ?_, rfl⟩)
    exact .cons (Text.isDigit_digitChar (by decide)) (.cons lower (.cons upper .nil))
  · decide
  · refine ⟨Nat.toDigits 10 18446744073709551616, _, ?_, ?_, Nat.le_refl _⟩
    · decide
    · exact .decimal (.plain Nat.toDigits_ne_nil (Text.writes_toDigits (by decide) _))
  · rw [CommandLine.lineAddress, if_pos rfl, recorded]
    rfl

end Address

end CodeView
