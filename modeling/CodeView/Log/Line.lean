import CodeView.Log.Event
import CodeView.Log.Format

/-!
# Log lines

One event in either layout of a log: a line for people, which has colors on a console, or a JSON
object on a line of its own. Both say when and where the event was reported.
-/

namespace CodeView.Log

/-- When and where in the program an event is reported. -/
structure Stamp where
  time : String
  file : String
  line : Nat
  /-- the name of the thread -/
  thread : String
  threadId : Nat
  deriving DecidableEq, Repr

/-- A stamp that tells nothing. -/
def Stamp.unknown : Stamp := ⟨"", "", 0, "", 0⟩

/-! ## JSON -/

/-- One character of a JSON string. Quotes, backslashes and control characters are escaped. -/
def jsonChar (c : Char) : String :=
  if c = '"' then "\\\""
  else if c = '\\' then "\\\\"
  else if c = '\x08' then "\\b"
  else if c = '\t' then "\\t"
  else if c = '\n' then "\\n"
  else if c = '\x0c' then "\\f"
  else if c = '\r' then "\\r"
  else if c.toNat < 0x20 then "\\u" ++ Text.hexDigits 4 c.toNat
  else String.ofList [c]

/-- A text as a JSON string. -/
def jsonString (text : String) : String :=
  "\"" ++ String.join (text.toList.map jsonChar) ++ "\""

/-- The members of a JSON object, each a name and the JSON text of its value. -/
def jsonObject (members : List (String × String)) : String :=
  let texts := members.map fun (name, value) => jsonString name ++ ":" ++ value
  "\x7b" ++ ",".intercalate texts ++ "\x7d"

/-- The object of an event. -/
def jsonLine (s : Stamp) (e : Event) : String :=
  jsonObject [("timestamp", jsonString s.time), ("level", jsonString e.level.name),
    ("fields", jsonObject [("message", jsonString e.message)]), ("target", jsonString e.target),
    ("filename", jsonString s.file), ("line_number", toString s.line),
    ("threadName", jsonString s.thread), ("threadId", jsonString s!"ThreadId({s.threadId})")]

/-! ## Lines for people -/

/-- A text in one of the styles of a console, if it is to have any. -/
def paint (colored : Bool) (style : Nat) (text : String) : String :=
  if colored then s!"\x1b[{style}m{text}\x1b[0m" else text

/-- The style of a level. -/
def Level.style : Level → Nat
  | error => 31
  | warn => 33
  | info => 32
  | debug => 34
  | trace => 35

/-- One character of a message. Those that could steer a console are spelled out. -/
def tameChar (c : Char) : String :=
  if c ∈ ['\x07', '\x08', '\x0c', '\x1b', '\x7f'] then "\\x" ++ Text.hexDigits 2 c.toNat
  else if 0x80 ≤ c.toNat ∧ c.toNat ≤ 0x9f then "\\u\x7b" ++ Text.hexDigits 2 c.toNat ++ "\x7d"
  else String.ofList [c]

/-- A message as it is shown. -/
def tame (message : String) : String :=
  String.join (message.toList.map tameChar)

/-- The line of an event without the line feed. What is not the event itself is faint. -/
def prettyLine (colored : Bool) (s : Stamp) (e : Event) : String :=
  let faint := paint colored 2
  let level := paint colored e.level.style (Text.padLeft 5 ' ' e.level.name)
  let id := Text.padLeft 2 '0' (toString s.threadId)
  let thread := s!"{s.thread} ThreadId({id})"
  let target := faint e.target ++ faint ":"
  let place := faint s.file ++ faint ":" ++ faint (toString s.line ++ ":")
  s!"{faint s.time} {level} {thread} {target} {place} {tame e.message}"

/-! ## Logs -/

/-- The line of an event, with a line feed behind it. Only lines for people are colored. -/
def Format.line (format : Format) (colored : Bool) (s : Stamp) (e : Event) : String :=
  match format with
  | pretty => prettyLine colored s e ++ "\n"
  | json => jsonLine s e ++ "\n"

/-- The lines of a log whose events are reported with stamps that are numbered in order. -/
def Format.lines (format : Format) (colored : Bool) (stamps : Nat → Stamp) (events : List Event) :
    List String :=
  events.mapIdx fun i e => format.line colored (stamps i) e

end CodeView.Log
