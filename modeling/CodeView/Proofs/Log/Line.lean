import CodeView.Log.Line
import CodeView.Proofs.Text.Number
import CodeView.Text.Pieces

/-!
# What the lines of a log tell

A log in JSON can be read back: no object has a line feed in it, so the lines are the pieces of the
text, and each of them gives the level, the target and the message of its event (`readRecords`). Of
a log for people, whose messages may have line feeds, each line shows the three in this order.
-/

namespace CodeView.Log

open Text (pieces)

/-- What a line of a log tells of an event. -/
structure Record where
  /-- the name of the level -/
  level : String
  target : String
  message : String
  deriving DecidableEq, Repr

def Event.record (e : Event) : Record :=
  ⟨e.level.name, e.target, e.message⟩

/-! ## Reading JSON -/

/-- The character that stands behind a backslash, unless it is given by its code. -/
def escaped? : Char → Option Char
  | '"' => some '"'
  | '\\' => some '\\'
  | '/' => some '/'
  | 'b' => some '\x08'
  | 'f' => some '\x0c'
  | 'n' => some '\n'
  | 'r' => some '\r'
  | 't' => some '\t'
  | _ => none

/-- Reads the rest of a JSON string, up to the quote behind it. -/
def readBody : List Char → Option (List Char × List Char)
  | [] => none
  | '"' :: rest => some ([], rest)
  | '\\' :: 'u' :: a :: b :: c :: d :: rest => do
    let code ← (Text.readDigits 16 0xffff 0 [a, b, c, d]).toOption
    (readBody rest).map fun (chars, rest) => (Char.ofNat code :: chars, rest)
  | '\\' :: mark :: rest => do
    let c ← escaped? mark
    (readBody rest).map fun (chars, rest) => (c :: chars, rest)
  | c :: rest =>
    if c.toNat < 0x20 then none
    else (readBody rest).map fun (chars, rest) => (c :: chars, rest)

/-- Reads a JSON string. -/
def readString : List Char → Option (String × List Char)
  | '"' :: rest => (readBody rest).map fun (chars, rest) => (String.ofList chars, rest)
  | _ => none

/-- Reads a member of an object that is a string, with what stands in front of it. -/
def readMember (front : String) (chars : List Char) : Option (String × List Char) := do
  readString (← chars.dropPrefix? front.toList)

/-- Reads the object of an event. -/
def readRecord (chars : List Char) : Option Record := do
  let (_, chars) ← readMember "\x7b\"timestamp\":" chars
  let (level, chars) ← readMember ",\"level\":" chars
  let (message, chars) ← readMember ",\"fields\":\x7b\"message\":" chars
  let (target, chars) ← readMember "\x7d,\"target\":" chars
  let (_, chars) ← readMember ",\"filename\":" chars
  let chars ← chars.dropPrefix? ",\"line_number\":".toList
  let (_, chars) ← readMember ",\"threadName\":" (chars.dropWhile Char.isDigit)
  let (_, chars) ← readMember ",\"threadId\":" chars
  guard (chars = ['\x7d'])
  return ⟨level, target, message⟩

/-- Reads a log of objects, each with a line feed behind it. -/
def readRecords (text : String) : Option (List Record) := do
  let lines := pieces '\n' text.toList
  guard (lines.getLast? = some [])
  lines.dropLast.mapM readRecord

/-! ## What is written in JSON is read back -/

theorem exists_hexDigits_eq {c : Char} (h : c.toNat < 0x20) :
    ∃ w x y z, (Text.hexDigits 4 c.toNat).toList = [w, x, y, z] ∧
      Text.readDigits 16 0xffff 0 [w, x, y, z] = .ok c.toNat := by
  have hlength : (Text.hexDigits 4 c.toNat).toList.length = 4 :=
    Text.length_hexDigits (by decide) (by omega)
  have hread : Text.readDigits 16 0xffff 0 (Text.hexDigits 4 c.toNat).toList = .ok c.toNat := by
    rw [Text.readDigits_eq_ok_iff (by decide) (by decide), Text.continues_zero_iff]
    exact ⟨Text.writes_hexDigits 4 c.toNat, by omega⟩
  obtain ⟨w, x, y, z, heq⟩ := List.length_eq_four.1 hlength
  rw [heq] at hread
  exact ⟨w, x, y, z, heq, hread⟩

theorem readBody_jsonChar (c : Char) (rest : List Char) :
    readBody ((jsonChar c).toList ++ rest) =
      (readBody rest).map fun (chars, rest) => (c :: chars, rest) := by
  unfold jsonChar
  split_ifs with quote backslash backspace tab feed form carriage code
  case pos => rw [quote]; simp [readBody, escaped?]
  case pos => rw [backslash]; simp [readBody, escaped?]
  case pos => rw [backspace]; simp [readBody, escaped?]
  case pos => rw [tab]; simp [readBody, escaped?]
  case pos => rw [feed]; simp [readBody, escaped?]
  case pos => rw [form]; simp [readBody, escaped?]
  case pos => rw [carriage]; simp [readBody, escaped?]
  case pos =>
    obtain ⟨w, x, y, z, heq, hread⟩ := exists_hexDigits_eq code
    have htext : ("\\u" ++ Text.hexDigits 4 c.toNat).toList ++ rest =
        '\\' :: 'u' :: w :: x :: y :: z :: rest := by
      rw [String.toList_append, heq]
      rfl
    rw [htext, readBody, hread]
    simp [Except.toOption]
  case neg =>
    rw [String.toList_ofList, List.singleton_append, readBody, if_neg code]
    all_goals simp [quote, backslash]

/-- The characters of a text between the quotes of a JSON string. -/
theorem toList_jsonString (text : String) :
    (jsonString text).toList =
      '"' :: (text.toList.flatMap fun c => (jsonChar c).toList) ++ ['"'] := by
  simp [jsonString, List.flatMap_map]

theorem readString_jsonString (text : String) (rest : List Char) :
    readString ((jsonString text).toList ++ rest) = some (text, rest) := by
  have body (chars : List Char) :
      readBody ((chars.flatMap fun c => (jsonChar c).toList) ++ '"' :: rest) =
        some (chars, rest) := by
    induction chars with
    | nil => rw [List.flatMap_nil, List.nil_append, readBody]
    | cons c chars ih =>
      rw [List.flatMap_cons, List.append_assoc, readBody_jsonChar, ih]
      rfl
  have htext : (jsonString text).toList ++ rest =
      '"' :: ((text.toList.flatMap fun c => (jsonChar c).toList) ++ '"' :: rest) := by
    simp [toList_jsonString]
  simp [htext, readString, body]

theorem readMember_jsonString (front text : String) (rest : List Char) :
    readMember front (front.toList ++ ((jsonString text).toList ++ rest)) = some (text, rest) := by
  rw [readMember, List.dropPrefix?_append_of_beq _ (beq_self_eq_true front.toList)]
  exact readString_jsonString text rest

theorem toList_jsonLine (s : Stamp) (e : Event) :
    (jsonLine s e).toList =
      "\x7b\"timestamp\":".toList ++ ((jsonString s.time).toList ++
      (",\"level\":".toList ++ ((jsonString e.level.name).toList ++
      (",\"fields\":\x7b\"message\":".toList ++ ((jsonString e.message).toList ++
      ("\x7d,\"target\":".toList ++ ((jsonString e.target).toList ++
      (",\"filename\":".toList ++ ((jsonString s.file).toList ++
      (",\"line_number\":".toList ++ (Nat.toDigits 10 s.line ++
      (",\"threadName\":".toList ++ ((jsonString s.thread).toList ++
      (",\"threadId\":".toList ++ ((jsonString s!"ThreadId({s.threadId})").toList ++
        ['\x7d']))))))))))))))) := by
  have named : ∀ name ∈ ["timestamp", "level", "fields", "message", "target", "filename",
      "line_number", "threadName", "threadId"], jsonString name = "\"" ++ name ++ "\"" := by
    decide +kernel
  simp only [List.forall_mem_cons] at named
  simp [jsonLine, jsonObject, String.intercalate_cons_cons, named]

theorem readRecord_jsonLine (s : Stamp) (e : Event) :
    readRecord (jsonLine s e).toList = some e.record := by
  have hnumber (rest : List Char) :
      (Nat.toDigits 10 s.line ++ (",\"threadName\":".toList ++ rest)).dropWhile Char.isDigit =
        ",\"threadName\":".toList ++ rest := by
    rw [List.dropWhile_append_of_pos fun c =>
      Nat.isDigit_of_mem_toDigits (by decide) (by decide)]
    rfl
  rw [toList_jsonLine, readRecord]
  simp only [readMember_jsonString, hnumber, Option.bind_eq_bind, Option.bind_some,
    List.dropPrefix?_append_of_beq _ (beq_self_eq_true ",\"line_number\":".toList)]
  rfl

/-- No line feed is left in a JSON string. -/
theorem feed_not_mem_jsonString (text : String) : '\n' ∉ (jsonString text).toList := by
  have digits (n : Nat) : '\n' ∉ (Text.hexDigits 4 n).toList := by
    intro h
    obtain hplus | ⟨d, hd⟩ := (Text.numeral_hexDigits 4 n).digit_of_mem h
    · exact absurd hplus (by decide)
    · rw [← Text.digitValue?_eq_some_iff (by decide)] at hd
      exact absurd hd (by simp [Text.digitValue?])
  have char (c : Char) : '\n' ∉ (jsonChar c).toList := by
    unfold jsonChar
    split_ifs with _ _ _ _ feed
    case neg => simpa using Ne.symm feed
    all_goals simp [digits]
  simp [toList_jsonString, char]

theorem feed_not_mem_jsonLine (s : Stamp) (e : Event) : '\n' ∉ (jsonLine s e).toList := by
  have digits : '\n' ∉ Nat.toDigits 10 s.line := fun h =>
    absurd (Nat.isDigit_of_mem_toDigits (by decide) (by decide) h) (by decide)
  simp [toList_jsonLine, feed_not_mem_jsonString, digits]

/-! ## What lines tell -/

/-- A line for people shows the level, the target and the message, in this order. -/
def Record.Shown (r : Record) (line : String) : Prop :=
  ∃ a b c, line = a ++ r.level ++ b ++ r.target ++ c ++ tame r.message ++ "\n"

/-- A text tells of events in a layout: a line for each of them, in order. Where it can, it is read
back. -/
def Format.Tells (events : List Event) (text : String) : Format → Prop
  | pretty => ∃ lines, text = String.join lines ∧
      List.Forall₂ Record.Shown (events.map Event.record) lines
  | json => readRecords text = some (events.map Event.record)

theorem exists_paint_eq (colored : Bool) (style : Nat) (text : String) :
    ∃ a b, paint colored style text = a ++ text ++ b := by
  cases colored with
  | false => exact ⟨"", "", by simp [paint]⟩
  | true => exact ⟨_, _, rfl⟩

theorem shown_prettyLine (colored : Bool) (s : Stamp) (e : Event) :
    e.record.Shown (Format.pretty.line colored s e) := by
  let pad := String.ofList (List.replicate (5 - e.level.name.length) ' ')
  let id := Text.padLeft 2 '0' (toString s.threadId)
  let faint := paint colored 2
  have hpad : Text.padLeft 5 ' ' e.level.name = pad ++ e.level.name := by
    rw [Text.padLeft, String.ofList_append, String.ofList_toList]
  obtain ⟨a, b, hlevel⟩ := exists_paint_eq colored e.level.style (pad ++ e.level.name)
  obtain ⟨c, d, htarget⟩ := exists_paint_eq colored 2 e.target
  refine ⟨faint s.time ++ " " ++ a ++ pad,
    b ++ " " ++ s.thread ++ " ThreadId(" ++ id ++ ") " ++ c,
    d ++ faint ":" ++ " " ++ faint s.file ++ faint ":" ++ faint (toString s.line ++ ":") ++ " ", ?_⟩
  have hspace : ") " = ")" ++ " " := rfl
  simp only [Format.line, prettyLine, hpad, hlevel, htarget, ToString.toString, Event.record,
    String.append_assoc, hspace, faint, id]

section Lines

variable {format : Format} {colored : Bool} {stamps : Nat → Stamp} {e : Event} {events : List Event}

theorem Format.lines_cons :
    format.lines colored stamps (e :: events) =
      format.line colored (stamps 0) e ::
        format.lines colored (fun i => stamps (i + 1)) events := by
  simp [Format.lines, List.mapIdx_cons]

theorem forall₂_shown : List.Forall₂ Record.Shown (events.map Event.record)
    (Format.pretty.lines colored stamps events) := by
  induction events generalizing stamps with
  | nil => exact .nil
  | cons e events ih =>
    rw [Format.lines_cons]
    exact .cons (shown_prettyLine ..) ih

theorem readRecords_lines :
    readRecords (String.join (Format.json.lines colored stamps events)) =
      some (events.map Event.record) := by
  have hpieces : pieces '\n' (String.join (Format.json.lines colored stamps events)).toList =
      (events.mapIdx fun i e => (jsonLine (stamps i) e).toList) ++ [[]] := by
    induction events generalizing stamps with
    | nil => rfl
    | cons e events ih =>
      have hline (rest : List Char) : (Format.json.line colored (stamps 0) e).toList ++ rest =
          (jsonLine (stamps 0) e).toList ++ '\n' :: rest := by
        simp [Format.line]
      rw [Format.lines_cons, String.join_cons, String.toList_append, hline,
        Text.pieces_append_cons (feed_not_mem_jsonLine (stamps 0) e), ih, List.mapIdx_cons]
      rfl
  have hread : (events.mapIdx fun i e => (jsonLine (stamps i) e).toList).mapM readRecord =
      some (events.map Event.record) := by
    clear hpieces
    induction events generalizing stamps with
    | nil => rfl
    | cons e events ih =>
      rw [List.mapIdx_cons, List.mapM_cons, readRecord_jsonLine, ih]
      rfl
  rw [readRecords, hpieces, List.getLast?_concat, List.dropLast_concat, hread]
  rfl

/-- The lines of a log tell of its events. -/
theorem Format.tells_lines (format : Format) (colored : Bool) (stamps : Nat → Stamp)
    (events : List Event) :
    format.Tells events (String.join (format.lines colored stamps events)) := by
  cases format with
  | pretty => exact ⟨_, rfl, forall₂_shown⟩
  | json => exact readRecords_lines

end Lines

end CodeView.Log
