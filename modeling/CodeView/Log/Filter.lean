import CodeView.Log.Directive
import CodeView.Log.Event

/-!
# Log filters

Which events a log takes. A filter is a list of directives, and of those that apply to an event
the most exact one decides, or the later of two equally exact ones; where none applies, nothing
is taken.
-/

namespace CodeView.Log

/-- A list of directives. -/
structure Filter where
  directives : List Directive
  deriving DecidableEq, Repr

namespace Filter

/-- Takes everything down to a level. -/
def ofLevel (level : Level) : Filter := ⟨[⟨"", .everything, some level⟩]⟩

/-- Reads directives with commas between them; empty ones do not count. Without any, errors are
taken. -/
def ofText? (text : String) : Option Filter :=
  let pieces := (Text.pieces ',' text.toList).filter fun piece => !piece.isEmpty
  if pieces.isEmpty then some (ofLevel .error)
  else (pieces.mapM Directive.ofText?).map (⟨·⟩)

/-- The directive that decides for an event. -/
def deciding? (f : Filter) (e : Event) : Option Directive :=
  (f.directives.filter fun d => d.appliesTo e.target Event.fields).foldl (fun best? d =>
    match best? with
    | some best => some (if d.atLeastAsExact best then d else best)
    | none => some d) none

/-- Whether the filter takes an event. -/
def takes (f : Filter) (e : Event) : Bool :=
  match (f.deciding? e).bind (·.threshold) with
  | some threshold => e.level.rank ≤ threshold.rank
  | none => false

end Filter

end CodeView.Log
