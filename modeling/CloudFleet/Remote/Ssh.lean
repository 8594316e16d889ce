import CloudFleet.Config.Basic
import CloudFleet.Remote.Output
import CloudFleet.Text.Blank
import CloudFleet.Text.Octets

/-!
# The secure shell clients

How the local `ssh` and `scp` programs are called for a call on the hosts (`Ssh.exec`, `Ssh.copyTo`, `Ssh.copyFrom`),
and what their end means (`Ssh.readOutput`, `Ssh.readCopy`). All calls to one host share a connection.
-/

set_option autoImplicit false

namespace CloudFleet.Ssh

/-- A call of a local program. -/
structure Invocation where
  program : String
  args : List String
deriving DecidableEq

/-- What a local program left behind. -/
structure Finished where
  status : ExitStatus
  stdout : List UInt8
  stderr : List UInt8

/-- The directories of the user. -/
structure Surroundings where
  home : Option Path
  /-- Where temporary files go. -/
  temporary : Path := "/tmp"

/-- The exit code of the client for failures of its own. -/
def clientFailure : Int := 255

/-- The options of both programs. -/
def options (c : SshConfig) (around : Surroundings) : List String :=
  let control := Path.join (c.controlDir.getD around.temporary) "fleet_exp-%C"
  ["-o", "StrictHostKeyChecking=no", "-o", "BatchMode=yes", "-o", s!"ServerAliveInterval={c.keepaliveSecs}",
   "-o", "ControlMaster=auto", "-o", "ControlPath=" ++ control, "-o", "ControlPersist=10m",
   "-i", Path.expandHome around.home c.privateKey]

/-- A host with the user to log in as. -/
def destination (c : SshConfig) (host : String) : String := c.user ++ "@" ++ host

/-- The call that runs a command on a host. -/
def exec (c : SshConfig) (around : Surroundings) (host command : String) (pty : Bool) : Invocation :=
  ⟨c.sshBinary, options c around ++ [if pty then "-tt" else "-T", destination c host, command]⟩

/-- The call that copies from one place to another. -/
def copy (c : SshConfig) (around : Surroundings) (source target : String) : Invocation :=
  ⟨c.scpBinary, options c around ++ ["-q", source, target]⟩

/-- The call that copies a local file to a host. -/
def copyTo (c : SshConfig) (around : Surroundings) (host : String) (localPath : Path) (remotePath : String) :
    Invocation :=
  copy c around localPath (destination c host ++ ":" ++ remotePath)

/-- The call that copies a file from a host. -/
def copyFrom (c : SshConfig) (around : Surroundings) (host remotePath : String) (localPath : Path) : Invocation :=
  copy c around (destination c host ++ ":" ++ remotePath) localPath

/-- The text of what a program wrote, without the blanks around it. -/
def textOf (bytes : List UInt8) : String := Text.trim (Text.decodeLossy bytes)

/-- What the end of a command means. The client's own failures are those of the connection. -/
def readOutput (host : String) (i : Invocation) : Except SystemError Finished → Except TransportError Output
  | .error e => .error (.spawn i.program e)
  | .ok f =>
    if f.status.code? = some clientFailure then .error (.unreachable host (textOf f.stderr))
    else .ok ⟨f.status.code?, textOf f.stdout, textOf f.stderr⟩

/-- What the end of a copy means. -/
def readCopy (i : Invocation) : Except SystemError Finished → Except TransportError Unit
  | .error e => .error (.spawn i.program e)
  | .ok f => if f.status.isSuccess then .ok () else .error (.exit i.program f.status.code? (textOf f.stderr))

end CloudFleet.Ssh
