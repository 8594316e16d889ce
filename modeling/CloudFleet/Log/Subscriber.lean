import CloudFleet.Fleet.Event
import CloudFleet.Log.Filter

/-!
# Installing a log

Lines go nowhere until a log is installed. The first installation counts; a later one is noted in the first log. A log
goes to standard output, or past a progress bar, which without a screen shows nothing.
-/

set_option autoImplicit false

namespace CloudFleet

/-- Where a log goes. -/
inductive LogWriter
  | output
  | progressBar
deriving DecidableEq

/-- The log that is installed, and the lines that standard output got. -/
structure Subscriber where
  installed : Option (LogFilter × LogWriter) := none
  lines : List String := []

namespace Subscriber

/-- The target of lines about the fleet. -/
def eventTarget : String := "fleet_exp::events"

/-- The target of lines about the log itself. -/
def progressTarget : String := "fleet_exp::progress"

/-- A line as it is shown, behind the time. -/
def render (time target : String) (line : LogLine) : String :=
  time ++ " " ++ Text.padLeft 5 line.level.name ++ " " ++ target ++ ": " ++ line.text

/-- Log a line. -/
def log (s : Subscriber) (time target : String) (line : LogLine) : Subscriber :=
  match s.installed with
  | some (filter, .output) =>
    if filter.shows target line.level then { s with lines := s.lines ++ [render time target line] } else s
  | _ => s

/-- Install a log. -/
def install (s : Subscriber) (time : String) (filter : LogFilter) (writer : LogWriter) : Subscriber :=
  match s.installed with
  | none => { s with installed := some (filter, writer) }
  | some _ => s.log time progressTarget ⟨.debug, "tracing subscriber already installed"⟩

/-- Log an event; nothing if it has no lines. -/
def announce? (s : Subscriber) (time : String) (e : Event) : Option Subscriber :=
  e.lines?.map fun lines => lines.foldl (fun s line => s.log time eventTarget line) s

/-- Print a line on standard output. -/
def print (s : Subscriber) (text : String) : Subscriber := { s with lines := s.lines ++ [text] }

end Subscriber

end CloudFleet
