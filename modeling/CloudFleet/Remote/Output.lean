import CloudFleet.Text.Quoted
import CloudFleet.Time.Duration
import CloudFleet.World.File

/-!
# Remote commands

What a command on a remote host leaves behind, how the transport to the host fails, and the calls on the shell that
reaches the hosts. A command answers after some time or never; the other calls answer at once.
-/

set_option autoImplicit false

namespace CloudFleet

/-- What a command that ran left behind. -/
structure Output where
  /-- Its exit code; absent if a signal killed it. -/
  exitCode : Option Int
  stdout : String
  stderr : String
deriving DecidableEq, Inhabited

namespace Output

/-- Success with a text on standard output. -/
def ok (stdout : String) : Output := ⟨some 0, stdout, ""⟩

/-- Failure with a code and a text on standard error. -/
def failed (code : Int) (stderr : String) : Output := ⟨some code, "", stderr⟩

end Output

/-- Why a host could not be made to do something. -/
inductive TransportError
  /-- The local client did not start. -/
  | spawn (program : String) (cause : SystemError)
  | unreachable (host message : String)
  /-- The local client ended with a failure. -/
  | exit (program : String) (code : Option Int) (stderr : String)
  | timeout (limit : Duration)
  | system (cause : SystemError)
deriving DecidableEq, Inhabited

/-- The wording of a transport error. -/
def TransportError.message : TransportError → String
  | spawn program cause => s!"failed to spawn {program}: {cause.text}"
  | unreachable host text => s!"{host} unreachable: {text}"
  | exit program code stderr => s!"{program} exited with {Text.shownOption code}: {stderr}"
  | timeout limit => s!"timed out after {limit.text}"
  | system cause => cause.text

/-- A command started on a host and left running. -/
structure Process where
  host : String
  /-- What tells it from the others on the host. -/
  number : Nat
deriving DecidableEq, Inhabited

/-- When and with what a call ends, if it does. -/
inductive Completion (α : Type)
  | after (delay : Duration) (value : α)
  | never

/-- A call on the shell that reaches the hosts. -/
inductive ShellCall
  /-- Run a command and wait for its end. -/
  | exec (host command : String) (pty : Bool)
  /-- Start a command and leave it running. -/
  | spawn (host command : String) (pty : Bool)
  | copyTo (host : String) (localPath : Path) (remotePath : String)
  | copyFrom (host remotePath : String) (localPath : Path)
  /-- Hang up on a command left running. -/
  | close (process : Process)
deriving DecidableEq

/-- The answer to a call on the shell. -/
@[reducible] def ShellCall.Reply : ShellCall → Type
  | exec .. => Completion (Except TransportError Output)
  | spawn .. => Except TransportError Process
  | copyTo .. => Except TransportError Unit
  | copyFrom .. => Except TransportError Unit
  | close _ => Except TransportError Unit

end CloudFleet
