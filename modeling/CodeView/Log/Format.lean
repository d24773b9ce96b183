/-!
# Log formats

The two layouts of a log, and the words by which one is chosen.
-/

namespace CodeView.Log

/-- The layout of a log. -/
inductive Format
  /-- lines for people -/
  | pretty
  /-- one JSON object an event -/
  | json
  deriving DecidableEq, Repr

namespace Format

/-- The layout where none is chosen. -/
def default : Format := pretty

/-- The layout that a word stands for, in letters of either case. -/
def ofText? (text : String) : Option Format :=
  match text.toLower with
  | "pretty" => some pretty
  | "text" => some pretty
  | "dev" => some pretty
  | "json" => some json
  | "prod" => some json
  | _ => none

/-- The sentence that reports a word for no layout. -/
def unknown (text : String) : String :=
  "Unknown log format: " ++ text ++ ". Use 'pretty' or 'json'"

end Format

end CodeView.Log
