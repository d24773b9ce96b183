import CodeView.CommandLine.Arguments
import CodeView.Proofs.Address

/-!
# What can be asked for

The input of an accepted command line has a path, a base of 64 bits and a base other than zero only
where it is raw, its log file has a path, and a look-up is of something (`sayable_of_asks`).
Whatever meets that can be written as arguments: the options with their values attached, `--` and
the operands (`asks_written`). So what is looked up together can be looked up one by one.
-/

namespace CodeView.CommandLine

open Log (Format Level)

/-- The arguments ask for a command with the given options for the log. -/
def Asks (args : List String) (options : LogOptions) (command : Command) : Prop :=
  Request.ofArguments args = .ok (.run options command)

instance (args : List String) (options : LogOptions) (command : Command) :
    Decidable (Asks args options command) :=
  inferInstanceAs (Decidable (Request.ofArguments args = .ok (.run options command)))

/-- What accepted arguments can say of an input. -/
structure Input.Sayable (i : Input) : Prop where
  path_ne : i.path ≠ ""
  raw_of_base : i.base ≠ 0 → i.raw
  base_lt : i.base < UInt64.size

/-- What accepted arguments can say of a command: a look-up is of something. -/
def Command.Sayable : Command → Prop
  | lookup input addresses _ => input.Sayable ∧ addresses ≠ []
  | line input _ _ => input.Sayable
  | dump input => input.Sayable
  | directory input => input.Sayable

theorem Command.Sayable.input {command : Command} (h : command.Sayable) :
    command.input.Sayable := by
  cases command with
  | lookup => exact h.1
  | line | dump | directory => exact h

/-- What accepted arguments can say of the log. -/
def LogOptions.Sayable (options : LogOptions) : Prop :=
  ∀ path ∈ options.file?, path ≠ ""

/-! ## Accepted arguments -/

theorem exists_of_bind_eq_ok {ε α β : Type} {x : Except ε α} {k : α → Except ε β} {b : β}
    (h : x >>= k = .ok b) : ∃ a, x = .ok a ∧ k a = .ok b := by
  cases x with
  | error e => cases h
  | ok a => exact ⟨a, rfl, h⟩

theorem eq_nil_of_mapM {ε α β : Type} {f : α → Except ε β} {items : List α}
    (h : items.mapM f = .ok []) : items = [] := by
  cases items with
  | nil => rfl
  | cons item rest =>
    rw [List.mapM_cons] at h
    obtain ⟨_, _, h⟩ := exists_of_bind_eq_ok h
    obtain ⟨_, _, h⟩ := exists_of_bind_eq_ok h
    cases h

/-- What is read on one level of a command line. -/
structure Reading.Sayable (r : Reading) : Prop where
  base_lt : ∀ base ∈ r.base?, base < UInt64.size
  file_ne : ∀ path ∈ r.file?, path ≠ ""

namespace Reading

variable {r r' outer inner : Reading}

theorem sayable_empty : empty.Sayable :=
  ⟨by simp [empty], by simp [empty]⟩

theorem Sayable.put {option : OptionName} {value : String} (h : r.Sayable)
    (hput : r.put option value = .ok r') : r'.Sayable := by
  obtain ⟨hbase, hfile⟩ := h
  cases option <;> simp only [Reading.put] at hput
  case logFile =>
    split at hput
    · cases hput
    case isFalse hempty =>
      cases hput
      exact ⟨hbase, by simpa using hempty⟩
  case base =>
    split at hput
    case h_1 address _ =>
      cases hput
      exact ⟨by simpa using address.value.toNat_lt_size, hfile⟩
    · cases hput
  case raw | strict | offset =>
    cases hput
    exact ⟨hbase, hfile⟩
  all_goals
    split at hput
    · cases hput
      exact ⟨hbase, hfile⟩
    · cases hput

theorem Sayable.putOnce {option : OptionName} {name value : String} (h : r.Sayable)
    (hput : r.putOnce option name value = .ok r') : r'.Sayable := by
  unfold Reading.putOnce at hput
  split at hput
  · cases hput
  · exact h.put hput

theorem Sayable.logOptions (houter : outer.Sayable) (hinner : inner.Sayable) :
    (logOptions outer inner).Sayable := by
  intro path hpath
  simp only [Reading.logOptions, Option.mem_def, Option.or_eq_some_iff] at hpath
  rcases hpath with hpath | ⟨-, hpath⟩
  · exact hinner.file_ne path hpath
  · exact houter.file_ne path hpath

end Reading

section Accepted

variable {verb? : Option Verb} {verb : Verb} {r r' : Reading} {args rest : List String}
  {options : LogOptions} {command : Command}

theorem Reading.Sayable.readOption {arg : String} (h : r.Sayable)
    (hread : readOption verb? r arg args = .ok (r', rest)) : r'.Sayable := by
  have taken {option name value} {left : List String}
      (htaken : (do return (← r.putOnce option name value, left)) =
        (.ok (r', rest) : Except UsageError _)) : r'.Sayable := by
    obtain ⟨_, hput, heq⟩ := exists_of_bind_eq_ok htaken
    cases heq
    exact h.putOnce hput
  unfold CommandLine.readOption at hread
  split at hread
  split at hread
  · cases hread
  · split at hread
    case h_2 | h_3 => exact taken hread
    case h_5 =>
      split at hread
      · cases hread
      · exact taken hread
    all_goals cases hread

theorem Reading.Sayable.readArguments {bound : Nat} (h : r.Sayable)
    (hread : readArguments verb r bound args = .ok r') : r'.Sayable := by
  induction bound generalizing r args with
  | zero =>
    cases hread
    exact h
  | succ bound ih =>
    cases args with
    | nil =>
      cases hread
      exact h
    | cons arg rest =>
      unfold CommandLine.readArguments at hread
      split at hread
      · cases hread
        exact ⟨h.base_lt, h.file_ne⟩
      · split at hread
        · cases hread
        · split at hread
          · split at hread
            case h_1 hoption => exact ih (h.readOption hoption) hread
            · cases hread
          · refine ih ?_ hread
            exact ⟨h.base_lt, h.file_ne⟩

/-- A command is made of what is read on the two levels of a command line. -/
theorem exists_readings {bound : Nat} (h : r.Sayable)
    (hread : readRequest r bound args = .ok (.run options command)) :
    ∃ outer inner verb, outer.Sayable ∧ inner.Sayable ∧
      options = Reading.logOptions outer inner ∧ commandOf verb inner = .ok command := by
  induction bound generalizing r args with
  | zero => cases hread
  | succ bound ih =>
    cases args with
    | nil => cases hread
    | cons arg rest =>
      unfold readRequest at hread
      split at hread
      · cases hread
      · split at hread
        · cases hread
        · split at hread
          · split at hread
            case h_1 hoption => exact ih (h.readOption hoption) hread
            · cases hread
          · split at hread
            · cases hread
            case h_2 verb _ =>
              obtain ⟨inner, hinner, hread⟩ := exists_of_bind_eq_ok hread
              obtain ⟨_, hcommand, heq⟩ := exists_of_bind_eq_ok hread
              cases heq
              exact ⟨r, inner, verb, h, Reading.sayable_empty.readArguments hinner, rfl, hcommand⟩

theorem Reading.Sayable.input (h : r.Sayable) {path : String}
    (hguard : (r.base?.isSome && !r.raw) = false) (hpath : path.isEmpty = false) :
    (⟨path, r.raw, r.base?.getD 0, r.strict⟩ : Input).Sayable := by
  cases hbase : r.base? with
  | none => exact ⟨by simpa using hpath, by simp, by simp⟩
  | some base =>
    rw [hbase] at hguard
    exact ⟨by simpa using hpath, fun _ => by simpa using hguard, h.base_lt base hbase⟩

theorem Reading.Sayable.commandOf (h : r.Sayable) (hcommand : commandOf verb r = .ok command) :
    command.Sayable := by
  rw [CommandLine.commandOf] at hcommand
  -- a base without a raw input, no operand and an empty path are refused before the verb counts
  cases hguard : r.base?.isSome && !r.raw with
  | true =>
    rw [hguard] at hcommand
    cases hcommand
  | false =>
    cases hoperands : r.operands.toList with
    | nil =>
      rw [hguard, hoperands] at hcommand
      cases hcommand
    | cons path operands =>
      rw [hguard, hoperands] at hcommand
      cases hpath : path.isEmpty with
      | true =>
        simp only [hpath] at hcommand
        cases hcommand
      | false =>
        have hinput := h.input hguard hpath
        simp only [hpath, Bool.false_eq_true, if_false] at hcommand
        split at hcommand
        case h_2 hsome =>
          obtain ⟨addresses, hmap, heq⟩ := exists_of_bind_eq_ok hcommand
          cases heq
          refine ⟨hinput, ?_⟩
          rintro rfl
          exact hsome (eq_nil_of_mapM hmap)
        case h_3 =>
          split at hcommand
          · cases hcommand
            exact hinput
          · cases hcommand
        case h_4 | h_5 =>
          cases hcommand
          exact hinput
        all_goals cases hcommand

/-- The input and the log of a command that is asked for. -/
theorem sayable_of_asks (h : Asks args options command) :
    options.Sayable ∧ command.Sayable := by
  obtain ⟨outer, inner, verb, houter, hinner, rfl, hcommand⟩ :=
    exists_readings Reading.sayable_empty h
  exact ⟨houter.logOptions hinner, hinner.commandOf hcommand⟩

end Accepted

/-! ## Written arguments -/

/-- The name of an option. -/
def OptionName.text : OptionName → String
  | logLevel => "--log-level"
  | logFormat => "--log-format"
  | logFile => "--log-file"
  | base => "--base"
  | raw => "--raw"
  | strict => "--strict"
  | offset => "--offset"

namespace OptionName

theorem exists_text_eq (option : OptionName) :
    ∃ c rest, option.text.toList = '-' :: '-' :: c :: rest := by
  cases option <;> exact ⟨_, _, rfl⟩

theorem ne_of_mem_text (option : OptionName) : ∀ c ∈ option.text.toList, c ≠ '=' := by
  cases option <;> simp [text]

/-- An option without a value does not look at one. -/
theorem putOnce_eq {option : OptionName} (h : option.takesValue = false) (r : Reading)
    (name value : String) : r.putOnce option name value = r.putOnce option name "" := by
  cases option
  case raw | strict | offset => rfl
  all_goals cases h

end OptionName

/-- An option and the value that it is given, which is nothing for an option without one. -/
structure Setting where
  option : OptionName
  value : String
  deriving DecidableEq, Repr

namespace Setting

/-- The argument of a setting. -/
def arg (s : Setting) : String :=
  if s.option.takesValue then s.option.text ++ "=" ++ s.value else s.option.text

/-- Takes in a setting. -/
def apply (r : Reading) (s : Setting) : Except UsageError Reading :=
  r.putOnce s.option s.option.text s.value

theorem toList_arg (s : Setting) :
    s.arg.toList =
      s.option.text.toList ++ if s.option.takesValue then '=' :: s.value.toList else [] := by
  unfold arg
  by_cases h : s.option.takesValue <;> simp [h]

theorem exists_arg_eq (s : Setting) : ∃ c rest, s.arg.toList = '-' :: '-' :: c :: rest := by
  obtain ⟨c, rest, h⟩ := s.option.exists_text_eq
  rw [toList_arg, h]
  exact ⟨c, _, rfl⟩

theorem isOption_arg (s : Setting) : isOption s.arg := by
  obtain ⟨c, rest, h⟩ := s.exists_arg_eq
  simp [isOption, h]

theorem arg_ne (s : Setting) : s.arg ≠ "--" := by
  obtain ⟨c, rest, h⟩ := s.exists_arg_eq
  intro heq
  rw [heq] at h
  simp at h

theorem splitOption_arg (s : Setting) :
    splitOption s.arg = (s.option.text, if s.option.takesValue then some s.value else none) := by
  have hname : ∀ c ∈ s.option.text.toList, decide (c ≠ '=') := by
    simpa using s.option.ne_of_mem_text
  rw [splitOption, toList_arg, List.takeWhile_append_of_pos hname,
    List.dropWhile_append_of_pos hname]
  by_cases h : s.option.takesValue
  · simp [h]
  · simp [h, arg]

theorem asksHelp_arg (s : Setting) : ¬ asksHelp s.arg := by
  obtain ⟨c, rest, h⟩ := s.exists_arg_eq
  have hlong : s.arg ≠ "--help" := by
    intro heq
    have hname : s.option.text = "--help" := by
      have hsplit := s.splitOption_arg
      rw [heq, (by decide +kernel : splitOption "--help" = ("--help", none)),
        Prod.mk.injEq] at hsplit
      exact hsplit.1.symm
    cases hoption : s.option <;> simp [hoption, OptionName.text] at hname
  simp [asksHelp, hlong, h]

/-- An option that a command knows is read from its argument. -/
theorem readOption_arg {verb? : Option Verb} {s : Setting} {r r' : Reading} {rest : List String}
    (hknown : OptionName.ofText? verb? s.option.text = some s.option)
    (happly : s.apply r = .ok r') : readOption verb? r s.arg rest = .ok (r', rest) := by
  rw [Setting.apply] at happly
  rw [readOption, splitOption_arg]
  simp only [hknown]
  cases h : s.option.takesValue with
  | true =>
    simp only [if_true, happly]
    rfl
  | false =>
    rw [OptionName.putOnce_eq h] at happly
    simp only [Bool.false_eq_true, if_false, happly]
    rfl

end Setting

/-- Settings are read one after the other, and behind `--` is what is no option. -/
theorem readArguments_settings {verb : Verb} {settings : List Setting} {r r' : Reading}
    (operands : List String) {bound : Nat} (hbound : settings.length < bound)
    (hknown : ∀ s ∈ settings, OptionName.ofText? (some verb) s.option.text = some s.option)
    (happly : settings.foldlM Setting.apply r = .ok r') :
    readArguments verb r bound (settings.map Setting.arg ++ "--" :: operands) =
      .ok { r' with operands := r'.operands ++ operands.toArray } := by
  induction settings generalizing r bound with
  | nil =>
    obtain ⟨bound, rfl⟩ := Nat.exists_eq_succ_of_ne_zero (Nat.ne_of_gt hbound)
    cases happly
    rfl
  | cons s rest ih =>
    obtain ⟨bound, rfl⟩ := Nat.exists_eq_succ_of_ne_zero (Nat.ne_zero_of_lt hbound)
    rw [List.forall_mem_cons] at hknown
    obtain ⟨next, hnext, hrest⟩ := exists_of_bind_eq_ok happly
    rw [List.map_cons, List.cons_append, readArguments, if_neg s.arg_ne, if_neg s.asksHelp_arg,
      if_pos s.isOption_arg, Setting.readOption_arg hknown.1 hnext]
    exact ih (Nat.lt_of_succ_lt_succ hbound) hknown.2 hrest

/-- The word for a layout of the log. -/
def formatWord : Format → String
  | .pretty => "pretty"
  | .json => "json"

/-- The name of a command. -/
def Verb.text : Verb → String
  | lookup => "lookup"
  | line => "line"
  | dump => "dump"
  | directory => "directory"

namespace Command

def verb : Command → Verb
  | lookup .. => .lookup
  | line .. => .line
  | dump _ => .dump
  | directory _ => .directory

/-- Whether the command is a look-up of code offsets. -/
def offsets : Command → Bool
  | lookup _ _ offsets => offsets
  | _ => false

/-- What a command works on beside its input. -/
def operands : Command → List String
  | lookup _ addresses _ => addresses.map Address.text
  | line _ file number => [file, toString number.toNat]
  | dump _ => []
  | directory _ => []

end Command

/-- The setting of an option with a value, if there is one. -/
def settingOf (option : OptionName) (value? : Option String) : List Setting :=
  value?.toList.map fun value => ⟨option, value⟩

/-- The setting of an option without a value, if it is chosen. -/
def flagOf (option : OptionName) (chosen : Bool) : List Setting :=
  if chosen then [⟨option, ""⟩] else []

/-- The base of a raw input, as text. -/
def Input.baseText? (i : Input) : Option String :=
  if i.raw then some (Address.mk (.ofNat i.base)).text else none

/-- Settings for a command and for the log. -/
def settings (options : LogOptions) (command : Command) : List Setting :=
  settingOf .logLevel (options.level?.map Level.name) ++
    settingOf .logFormat (options.format?.map formatWord) ++ settingOf .logFile options.file? ++
    flagOf .raw command.input.raw ++ settingOf .base command.input.baseText? ++
    flagOf .strict command.input.strict ++ flagOf .offset command.offsets

/-- The arguments of a command, behind its name. -/
def arguments (options : LogOptions) (command : Command) : List String :=
  (settings options command).map Setting.arg ++ "--" :: command.input.path :: command.operands

/-- Arguments that ask for a command. -/
def written (options : LogOptions) (command : Command) : List String :=
  command.verb.text :: arguments options command

/-- What is read of the arguments of a command. -/
def reading (options : LogOptions) (command : Command) : Reading where
  level? := options.level?
  format? := options.format?
  file? := options.file?
  base? := if command.input.raw then some command.input.base else none
  raw := command.input.raw
  strict := command.input.strict
  offset := command.offsets
  operands := (command.input.path :: command.operands).toArray

section Written

variable {r : Reading}

theorem foldlM_settingOf (option : OptionName) (value? : Option String) :
    (settingOf option value?).foldlM Setting.apply r =
      match value? with
      | none => .ok r
      | some value => Setting.apply r ⟨option, value⟩ := by
  cases value? with
  | none => rfl
  | some value => simp [settingOf]

theorem foldlM_flagOf (option : OptionName) (chosen : Bool) :
    (flagOf option chosen).foldlM Setting.apply r =
      if chosen then Setting.apply r ⟨option, ""⟩ else .ok r := by
  cases chosen with
  | false => rfl
  | true => simp [flagOf]

theorem foldlM_level (h : r.level? = none) (level? : Option Level) :
    (settingOf .logLevel (level?.map Level.name)).foldlM Setting.apply r =
      .ok { r with level? := level? } := by
  have hword (level : Level) : Level.ofText? level.name = some level := by
    cases level <;> decide +kernel
  rw [foldlM_settingOf]
  cases level? with
  | none =>
    show Except.ok r = _
    rw [← h]
  | some level => simp [Setting.apply, Reading.putOnce, Reading.has, Reading.put, h, hword]

theorem foldlM_format (h : r.format? = none) (format? : Option Format) :
    (settingOf .logFormat (format?.map formatWord)).foldlM Setting.apply r =
      .ok { r with format? := format? } := by
  have hword (format : Format) : Format.ofText? (formatWord format) = some format := by
    cases format <;> decide +kernel
  rw [foldlM_settingOf]
  cases format? with
  | none =>
    show Except.ok r = _
    rw [← h]
  | some format => simp [Setting.apply, Reading.putOnce, Reading.has, Reading.put, h, hword]

theorem foldlM_file (h : r.file? = none) {path? : Option String}
    (hpath : ∀ path ∈ path?, path ≠ "") :
    (settingOf .logFile path?).foldlM Setting.apply r = .ok { r with file? := path? } := by
  rw [foldlM_settingOf]
  cases path? with
  | none =>
    show Except.ok r = _
    rw [← h]
  | some path =>
    have hne : path ≠ "" := hpath path rfl
    simp [Setting.apply, Reading.putOnce, Reading.has, Reading.put, h, hne]

theorem foldlM_base (h : r.base? = none) {i : Input} (hbase : i.base < UInt64.size) :
    (settingOf .base i.baseText?).foldlM Setting.apply r =
      .ok { r with base? := if i.raw then some i.base else none } := by
  have hvalue : (UInt64.ofNat i.base).toNat = i.base := UInt64.toNat_ofNat_of_lt' hbase
  rw [foldlM_settingOf, Input.baseText?]
  cases i.raw with
  | false =>
    show Except.ok r = .ok { r with base? := none }
    rw [← h]
  | true =>
    simp [Setting.apply, Reading.putOnce, Reading.has, Reading.put, h, Address.ofText_text, hvalue]

theorem foldlM_raw (h : r.raw = false) (chosen : Bool) :
    (flagOf .raw chosen).foldlM Setting.apply r = .ok { r with raw := chosen } := by
  rw [foldlM_flagOf]
  cases chosen with
  | false => simp [← h]
  | true => simp [Setting.apply, Reading.putOnce, Reading.has, Reading.put, h]

theorem foldlM_strict (h : r.strict = false) (chosen : Bool) :
    (flagOf .strict chosen).foldlM Setting.apply r = .ok { r with strict := chosen } := by
  rw [foldlM_flagOf]
  cases chosen with
  | false => simp [← h]
  | true => simp [Setting.apply, Reading.putOnce, Reading.has, Reading.put, h]

theorem foldlM_offset (h : r.offset = false) (chosen : Bool) :
    (flagOf .offset chosen).foldlM Setting.apply r = .ok { r with offset := chosen } := by
  rw [foldlM_flagOf]
  cases chosen with
  | false => simp [← h]
  | true => simp [Setting.apply, Reading.putOnce, Reading.has, Reading.put, h]

theorem foldlM_settings {options : LogOptions} {command : Command} (h : options.Sayable)
    (hbase : command.input.base < UInt64.size) :
    (settings options command).foldlM Setting.apply .empty =
      .ok { reading options command with operands := #[] } := by
  -- each option is set once, so it finds its field as the empty reading has it
  simp only [settings, List.foldlM_append, foldlM_level, Reading.empty, bind, Except.bind,
    foldlM_format, foldlM_file _ h, foldlM_raw, foldlM_base _ hbase, foldlM_strict, foldlM_offset,
    reading]

end Written

theorem lineNumber?_toString (line : UInt16) : lineNumber? (toString line.toNat) = some line := by
  have htext : (toString line.toNat).toList = Nat.toDigits 10 line.toNat := Nat.toList_repr
  have hnumeral : Text.Numeral 10 (Nat.toDigits 10 line.toNat) line.toNat :=
    .plain Nat.toDigits_ne_nil (Text.writes_toDigits (by decide) _)
  have hlimit : line.toNat ≤ 65535 := Nat.le_of_lt_succ line.toNat_lt
  have hread := (Text.readUnsigned_eq_ok_iff (by decide)).2 ⟨hnumeral, hlimit⟩
  rw [lineNumber?, htext]
  split
  case h_1 heq =>
    have hdash : '-' ∈ Nat.toDigits 10 line.toNat := heq ▸ List.mem_cons_self
    exact absurd (Nat.isDigit_of_mem_toDigits (by decide) (by decide) hdash) (by decide)
  case h_2 =>
    rw [hread]
    simp [Except.toOption]

/-- The command of a reading that says the same of its input. -/
theorem commandOf_eq {r : Reading} {command : Command} (h : command.Sayable)
    (hraw : r.base?.isSome → r.raw)
    (hoperands : r.operands.toList = command.input.path :: command.operands)
    (hinput : (⟨command.input.path, r.raw, r.base?.getD 0, r.strict⟩ : Input) = command.input)
    (hoffset : r.offset = command.offsets) : commandOf command.verb r = .ok command := by
  have hguard : (r.base?.isSome && !r.raw) = false := by
    simpa using hraw
  have hpath : command.input.path.isEmpty = false := by
    simpa using h.input.path_ne
  cases command with
  | lookup input addresses offsets =>
    have htexts : List.Forall₂ (fun text a => Address.ofText text = .ok a)
        (addresses.map Address.text) addresses := by
      simp [List.forall₂_map_left_iff, List.forall₂_same, Address.ofText_text]
    have hsome : addresses.map Address.text ≠ [] := by
      simpa using h.2
    rw [Command.verb, commandOf_lookup hraw h.input.path_ne hoperands hsome htexts, hinput,
      hoffset]
    rfl
  | line input file number =>
    rw [Command.verb, commandOf, hguard, hoperands]
    simp only [Command.operands, hpath, lineNumber?_toString, hinput]
    rfl
  | dump input | directory input =>
    rw [Command.verb, commandOf, hguard, hoperands]
    simp only [Command.operands, hpath, hinput]
    rfl

/-- A command knows the options that are set for it. -/
theorem known_of_mem_settings {options : LogOptions} {command : Command} {s : Setting}
    (h : s ∈ settings options command) :
    OptionName.ofText? (some command.verb) s.option.text = some s.option := by
  rcases s with ⟨option, value⟩
  cases option
  case offset =>
    have hoffsets : command.offsets ∧ value = "" := by
      simpa [settings, settingOf, flagOf] using h
    cases command with
    | lookup => rfl
    | line | dump | directory => cases hoffsets.1
  all_goals rfl

theorem readRequest_verb {r : Reading} {verb : Verb} {rest : List String} :
    readRequest r (rest.length + 1) (verb.text :: rest) = (do
      let inner ← readArguments verb .empty rest.length rest
      return .run (Reading.logOptions r inner) (← commandOf verb inner)) := by
  cases verb <;> rfl

theorem readArguments_arguments {options : LogOptions} {command : Command} (h : options.Sayable)
    (hbase : command.input.base < UInt64.size) :
    readArguments command.verb .empty (arguments options command).length
      (arguments options command) = .ok (reading options command) := by
  have hbound : (settings options command).length < (arguments options command).length := by
    simp [arguments]
  have hread := readArguments_settings (command.input.path :: command.operands) hbound
    (fun _ => known_of_mem_settings) (foldlM_settings h hbase)
  simpa [arguments, reading] using hread

theorem commandOf_reading {options : LogOptions} {command : Command} (h : command.Sayable) :
    commandOf command.verb (reading options command) = .ok command := by
  have hbase : (if command.input.raw then some command.input.base else none).getD 0 =
      command.input.base := by
    by_cases hraw : command.input.raw
    · rw [if_pos hraw]
      rfl
    · by_contra hne
      rw [if_neg hraw] at hne
      exact hraw (h.input.raw_of_base (Ne.symm hne))
  refine commandOf_eq h ?_ (by simp [reading]) ?_ rfl
  · simp [reading]
  · simp [reading, hbase]

/-- Whatever can be said of a command and its log is asked for by some arguments. -/
theorem asks_written {options : LogOptions} {command : Command} (h : options.Sayable)
    (hcommand : command.Sayable) : Asks (written options command) options command := by
  have hread := readArguments_arguments h hcommand.input.base_lt
  have hoptions : Reading.logOptions .empty (reading options command) = options := by
    simp [Reading.logOptions, Reading.empty, reading]
  rw [Asks, Request.ofArguments, written, List.length_cons, readRequest_verb, hread]
  show (do
    return Request.run (Reading.logOptions .empty (reading options command))
      (← commandOf command.verb (reading options command))) = _
  rw [commandOf_reading hcommand, hoptions]
  rfl

/-- A command can be asked for exactly if its input and its log can be said. -/
theorem exists_asks_iff {options : LogOptions} {command : Command} :
    (∃ args, Asks args options command) ↔ options.Sayable ∧ command.Sayable := by
  constructor
  · rintro ⟨args, h⟩
    exact sayable_of_asks h
  · rintro ⟨hoptions, hcommand⟩
    exact ⟨_, asks_written hoptions hcommand⟩

end CodeView.CommandLine
