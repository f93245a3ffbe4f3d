/-!
# Logs

What happens during a run is told in records: a level, a message, and named values.
-/

namespace SanitizeGen

/-- How much a record matters. -/
inductive LogLevel where
  | debug
  | info
  | warning
  deriving DecidableEq

/-- The short name of the level. -/
def LogLevel.name : LogLevel → String
  | debug => "DEBG"
  | info => "INFO"
  | warning => "WARN"

/-- One record of a log. -/
structure LogRecord where
  level : LogLevel
  message : String
  /-- Values by name. -/
  pairs : List (String × String)
  deriving DecidableEq

/-- The record with further values, which hold for the whole run. -/
def LogRecord.within (r : LogRecord) (pairs : List (String × String)) : LogRecord :=
  { r with pairs := pairs ++ r.pairs }

end SanitizeGen
