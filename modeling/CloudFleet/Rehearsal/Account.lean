import CloudFleet.Fleet.EventJson
import CloudFleet.Remote.OutcomeJson
import CloudFleet.World.Program

/-!
# Accounts of what was exchanged

Of the requests that programs made and the answers they got, an account tells those of one kind, in order.
-/

set_option autoImplicit false

namespace CloudFleet.Rehearsal

open Json

/-- A request with its answer. -/
abbrev Exchange := (r : Request) × r.Reply

/-- What was exchanged, first things first. -/
abbrev Account := List Exchange

namespace Account

/-- The calls on the control plane. -/
def cloudCalls (xs : Account) : List CloudCall :=
  xs.filterMap fun x => match x.1 with
    | .cloud call => some call
    | _ => none

/-- The calls on the shell. -/
def shellCalls (xs : Account) : List ShellCall :=
  xs.filterMap fun x => match x.1 with
    | .shell call => some call
    | _ => none

/-- The attempts to connect. -/
def probes (xs : Account) : List (String × UInt16 × Duration) :=
  xs.filterMap fun x => match x.1 with
    | .probe address port limit => some (address, port, limit)
    | _ => none

/-- The events. -/
def events (xs : Account) : List Event :=
  xs.filterMap fun x => match x.1 with
    | .announce e => some e
    | _ => none

/-- The log lines. -/
def lines (xs : Account) : List LogLine :=
  xs.filterMap fun x => match x.1 with
    | .log line => some line
    | _ => none

/-- The log lines of at least ordinary weight. -/
def notes (xs : Account) : List LogLine := xs.lines.filter fun l => l.level.rank ≤ Level.info.rank

/-- The questions to the operator. -/
def questions (xs : Account) : List String :=
  xs.filterMap fun x => match x.1 with
    | .confirm question => some question
    | _ => none

/-- The commands that ran to their end, with their hosts. -/
def commands (xs : Account) : List (String × String) :=
  xs.filterMap fun x => match x with
    | ⟨.shell (.exec host command _), .after _ (.ok _)⟩ => some (host, command)
    | _ => none

/-- The calls on the control plane as a value. -/
def cloudJson (xs : Account) : Json := .array (xs.cloudCalls.map CloudCall.toJson)

/-- The calls on the shell as a value. -/
def shellJson (xs : Account) : Json := .array (xs.shellCalls.map ShellCall.toJson)

/-- The attempts to connect as a value. -/
def probesJson (xs : Account) : Json :=
  .array (xs.probes.map fun p => .array [ofText p.1, ofWord16 p.2.1, ofNat p.2.2.millis])

/-- The events as a value. -/
def eventsJson (xs : Account) : Json := .array (xs.events.map Event.toJson)

/-- A call on the control plane in brief. -/
def briefCall (c : CloudCall) : Json :=
  let ids : List InstanceId := match c with
    | .describeInstances _ ids | .describeStatuses _ ids | .transition _ _ ids _ => ids
    | _ => []
  .array [ofText c.region.name, ofTexts ids, .bool c.isDryRun]

/-- The calls of an operation in brief, and the number of all calls. -/
def callsJson (operation : String) (xs : Account) : Json :=
  .array [.array ((xs.cloudCalls.filter fun c => c.operation == operation).map briefCall), ofNat xs.cloudCalls.length]

/-- What came about on hosts besides commands that ran: processes started and closed, files copied. -/
def deedsJson (xs : Account) : Json :=
  let only (f : Exchange → Option Json) : Json := .array (xs.filterMap f)
  record [
    ("spawned", only fun x => match x with
      | ⟨.shell (.spawn host command pty), .ok _⟩ => some (.array [ofText host, ofText command, .bool pty])
      | _ => none),
    ("closed", only fun x => match x with
      | ⟨.shell (.close process), _⟩ => some (ofText process.host)
      | _ => none),
    ("copied_to", only fun x => match x with
      | ⟨.shell (.copyTo host localPath remotePath), .ok _⟩ => some (ofTexts [host, localPath, remotePath])
      | _ => none),
    ("copied_from", only fun x => match x with
      | ⟨.shell (.copyFrom host remotePath localPath), .ok _⟩ => some (ofTexts [host, remotePath, localPath])
      | _ => none)]

/-- The log lines of at least ordinary weight as a value. -/
def notesJson (xs : Account) : Json := .array (xs.notes.map LogLine.toJson)

end Account

end CloudFleet.Rehearsal
