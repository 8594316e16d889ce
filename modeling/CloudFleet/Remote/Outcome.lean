import CloudFleet.Cloud.Record
import CloudFleet.Remote.Output

/-!
# Outcomes of a fan-out

A command that is run on several hosts has one outcome per host. It succeeded on a host that was reached and where it
ended with code 0.
-/

set_option autoImplicit false

namespace CloudFleet

/-- What came of a command on one host. -/
structure Outcome where
  host : String
  /-- The instance behind the host. -/
  id : Option InstanceId
  exitCode : Option Int
  stdout : String
  stderr : String
  /-- Why the command could not be run at all. -/
  error : Option TransportError
deriving DecidableEq, Inhabited

namespace Outcome

/-- Whether the command ran and ended with code 0. -/
def isSuccess (o : Outcome) : Bool := o.error.isNone && o.exitCode == some 0

/-- The instance, or the host where that is not known. -/
def who (o : Outcome) : String := o.id.getD o.host

/-- An outcome in one line. -/
def text (o : Outcome) : String :=
  match o.error, o.exitCode with
  | some error, _ => s!"{o.who}: ERROR({error.message})"
  | none, some 0 => s!"{o.who}: {o.stdout}"
  | none, code => s!"{o.who}: ERROR({Text.shownOption code}): {o.stderr}"

end Outcome

/-- All outcomes of a command. -/
structure RunResult where
  command : String
  outcomes : List Outcome
deriving DecidableEq, Inhabited

namespace RunResult

/-- Whether the command succeeded on every host. -/
def isSuccess (r : RunResult) : Bool := r.outcomes.all Outcome.isSuccess

/-- The outcome on a host. -/
def outcome? (r : RunResult) (host : String) : Option Outcome := r.outcomes.find? fun o => o.host == host

/-- The outcomes of the hosts where the command failed. -/
def failures (r : RunResult) : List Outcome := r.outcomes.filter fun o => !o.isSuccess

end RunResult

/-- Why an operation on the hosts failed. -/
inductive RemoteError
  | notConnected
  /-- The number of arguments is not that of the hosts. -/
  | hostArgs (hosts args : Nat)
  | commandFailed (command : String) (outcomes : List Outcome)
  /-- A host could not be made to run a command. -/
  | transport (host : String) (cause : TransportError)
  | dispatchTimeout (limit : Duration)
  /-- A copy to or from a host failed. -/
  | copy (host : String) (cause : TransportError)
deriving DecidableEq

/-- The wording of an error. -/
def RemoteError.message : RemoteError → String
  | notConnected => "not connected to any host"
  | hostArgs hosts args => s!"{args} host argument(s) given for {hosts} host(s)"
  | commandFailed command outcomes =>
    s!"execution of command '{command}' failed for at least one instance:\n" ++
      "\n".intercalate ((outcomes.filter fun o => !o.isSuccess).map fun o => "    " ++ o.text)
  | transport host cause => s!"{host}: {cause.message}"
  | dispatchTimeout limit => s!"fan-out did not complete within {limit.text}"
  | copy host cause => s!"copy to/from {host} failed: {cause.message}"

end CloudFleet
