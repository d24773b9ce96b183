/-!
# Log levels

How severe an event is, and the words by which a level is chosen.
-/

namespace CodeView.Log

/-- How severe an event is. -/
inductive Level
  | error
  | warn
  | info
  | debug
  | trace
  deriving DecidableEq, Repr

namespace Level

/-- The place of a level, the most severe first. -/
def rank : Level → Nat
  | error => 1
  | warn => 2
  | info => 3
  | debug => 4
  | trace => 5

/-- The level in log records. -/
def name : Level → String
  | error => "ERROR"
  | warn => "WARN"
  | info => "INFO"
  | debug => "DEBUG"
  | trace => "TRACE"

/-- The level that a word stands for, in letters of either case. -/
def ofText? (text : String) : Option Level :=
  match text.toLower with
  | "error" => some error
  | "err" => some error
  | "warn" => some warn
  | "warning" => some warn
  | "info" => some info
  | "debug" => some debug
  | "dbg" => some debug
  | "trace" => some trace
  | _ => none

/-- The sentence that reports a word for no level. -/
def unknown (text : String) : String :=
  "Unknown log level: " ++ text ++ ". Use 'error', 'warn', 'info', 'debug', or 'trace'"

end Level

end CodeView.Log
