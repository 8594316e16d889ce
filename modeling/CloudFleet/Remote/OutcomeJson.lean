import CloudFleet.Json.Access
import CloudFleet.Remote.Session

/-!
# What happens on hosts as values
-/

set_option autoImplicit false

namespace CloudFleet

open Json

/-- The duration of seconds and nanoseconds at two places of an array. -/
def Duration.ofItems (j : Json) (i : Nat) : Duration := ⟨(Duration.ofSeconds (itemNat j i)).nanos + itemNat j (i + 1)⟩

namespace TransportError

/-- The error that a value describes. -/
def ofJson (j : Json) : TransportError :=
  match itemText j 0 with
  | "Spawn" => spawn (itemText j 1) ⟨false, itemText j 2⟩
  | "Unreachable" => unreachable (itemText j 1) (itemText j 2)
  | "Exit" => exit (itemText j 1) (int? (item j 2)) (itemText j 3)
  | "Timeout" => timeout (.ofItems j 1)
  | _ => system ⟨false, itemText j 1⟩

/-- An error as a value. -/
def toJson (e : TransportError) : Json :=
  match e with
  | spawn program _ => record [("error", ofText "Spawn"), ("program", ofText program)]
  | unreachable .. => failure "Unreachable" e.message
  | exit .. => failure "Exit" e.message
  | timeout _ => failure "Timeout" e.message
  | system _ => foreign "Io"

end TransportError

/-- What a command left behind as a value. -/
def Output.toJson (o : Output) : Json :=
  record [("exit_code", ofOption ofInt o.exitCode), ("stdout", ofText o.stdout), ("stderr", ofText o.stderr)]

namespace Outcome

/-- The outcome that a value describes. -/
def ofJson (j : Json) : Outcome where
  host := textAt j "host"
  id := textAt? j "id"
  exitCode := int? (get j "exit_code")
  stdout := textAt j "stdout"
  stderr := textAt j "stderr"
  error := if hasAt j "error" then some (.ofJson (get j "error")) else none

/-- An outcome as a value. -/
def toJson (o : Outcome) : Json :=
  record [("host", ofText o.host), ("id", ofText? o.id), ("exit_code", ofOption ofInt o.exitCode),
    ("stdout", ofText o.stdout), ("stderr", ofText o.stderr),
    ("transport", ofText? (o.error.map TransportError.message)), ("success", .bool o.isSuccess),
    ("display", ofText o.text)]

end Outcome

/-- The outcomes of a command as a value. -/
def RunResult.toJson (r : RunResult) : Json :=
  record [("command", ofText r.command), ("success", .bool r.isSuccess),
    ("failures", ofTexts (r.failures.map Outcome.host)), ("outcomes", .array (r.outcomes.map Outcome.toJson))]

/-- An error as a value. -/
def RemoteError.toJson (e : RemoteError) : Json :=
  match e with
  | notConnected => failure "NotConnected" e.message
  | hostArgs .. => failure "HostArgs" e.message
  | commandFailed _ outcomes =>
    record [("error", ofText "CommandFailed"), ("message", ofText e.message),
      ("outcomes", .array (outcomes.map Outcome.toJson))]
  | transport .. => failure "Transport" e.message
  | dispatchTimeout _ => failure "DispatchTimeout" e.message
  | copy .. => failure "Copy" e.message

/-- The options that a value describes, over those for commands that must succeed or, if it says so, may fail. -/
def RunOptions.ofJson (j : Json) : RunOptions :=
  let base : RunOptions := if flagAt j "tolerant" then .tolerant else {}
  { elevated := (flagAt? j "sudo").getD base.elevated
    user := textAt? j "user"
    stopOnErrors := (flagAt? j "stop_on_errors").getD base.stopOnErrors
    pty := (flagAt? j "pty").getD base.pty
    hostArgs := if hasAt j "host_args" then some (textsAt j "host_args") else none
    timeout := (natAt? j "timeout_ms").map .ofMillis
    dispatchTimeout := (natAt? j "dispatch_timeout_ms").map .ofMillis
    raiseOnFailure := (flagAt? j "raise").getD base.raiseOnFailure }

/-- The script that a value describes: a text or a list of texts. -/
def Script.ofJson : Json → Script
  | .array commands => sequence (texts (.array commands))
  | j => single ((text? j).getD "")

/-- A call on the shell as a value. -/
def ShellCall.toJson : ShellCall → Json
  | exec host command pty => .array [ofText "exec", ofText host, ofText command, .bool pty]
  | spawn host command pty => .array [ofText "spawn", ofText host, ofText command, .bool pty]
  | copyTo host localPath remotePath => ofTexts ["copy_to", host, localPath, remotePath]
  | copyFrom host remotePath localPath => ofTexts ["copy_from", host, remotePath, localPath]
  | close process => ofTexts ["close", process.host]

end CloudFleet
