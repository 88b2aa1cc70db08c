/-!
Events that are worth a line in a log.
-/

namespace FieldSelection

/-- How much an event matters. -/
inductive LogLevel where
  | trace
  | debug
  | warn
  deriving DecidableEq, Repr

/-- The word for a level. -/
def LogLevel.word : LogLevel → String
  | .trace => "TRACE"
  | .debug => "DEBUG"
  | .warn => "WARN"

/-- An event: its level and its fields, the message among them. -/
structure Event where
  level : LogLevel
  fields : List (String × String)
  deriving DecidableEq, Repr

end FieldSelection
