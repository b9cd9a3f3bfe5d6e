/-!
# Log lines
-/

namespace Socks5

/-- How much a log line matters. -/
inductive LogLevel where
  | debug
  | info
  | warn
  | error
deriving DecidableEq, Repr

namespace LogLevel

/-- The name of a level. -/
def name : LogLevel → String
  | .debug => "DEBUG"
  | .info => "INFO"
  | .warn => "WARN"
  | .error => "ERROR"

end LogLevel

/-- A line of a log. -/
structure LogLine where
  level : LogLevel
  text : String
deriving DecidableEq, Repr

end Socks5
