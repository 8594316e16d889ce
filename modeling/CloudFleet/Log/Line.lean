/-!
# Log lines

A log line has a level and a text.
-/

set_option autoImplicit false

namespace CloudFleet

/-- How much a log line matters. -/
inductive Level
  | error
  | warn
  | info
  | debug
  | trace
deriving DecidableEq, Inhabited

namespace Level

/-- The name of a level in log lines. -/
def name : Level → String
  | error => "ERROR"
  | warn => "WARN"
  | info => "INFO"
  | debug => "DEBUG"
  | trace => "TRACE"

/-- How many levels are at least as important. -/
def rank : Level → Nat
  | error => 1
  | warn => 2
  | info => 3
  | debug => 4
  | trace => 5

end Level

/-- One line of a log. -/
structure LogLine where
  level : Level
  text : String
deriving DecidableEq, Inhabited

end CloudFleet
