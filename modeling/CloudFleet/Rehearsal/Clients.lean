import CloudFleet.Rehearsal.ScriptRun
import CloudFleet.Remote.Ssh

/-!
# Stand-ins for the secure shell clients

Calls on the hosts go through the clients' invocations, which scripts answer.
-/

set_option autoImplicit false

namespace CloudFleet.Rehearsal

/-- The clients by their configuration. -/
structure Clients where
  config : SshConfig
  around : Ssh.Surroundings
  /-- How many processes were started. -/
  started : Nat := 0

namespace Clients

/-- What an invocation leaves behind, when, and the files after it. -/
def invoke (t : FileTree) (i : Ssh.Invocation) : Except SystemError Ssh.Finished × Duration × FileTree :=
  match Script.launch t i.program i.args with
  | .error e => (.error e, .zero, t)
  | .ok (f, t) => (.ok ⟨f.status, f.stdout, f.stderr⟩, f.slept, t)

/-- The answer to a call, with the clients and the files after it. -/
def answer (s : Clients) (t : FileTree) : (c : ShellCall) → c.Reply × Clients × FileTree
  | .exec host command pty =>
    let call := Ssh.exec s.config s.around host command pty
    let (result, time, t) := invoke t call
    (.after time (Ssh.readOutput host call result), s, t)
  | .spawn host command pty =>
    let call := Ssh.exec s.config s.around host command pty
    match invoke t call with
    | (.error e, _, t) => (.error (.spawn call.program e), s, t)
    | (.ok _, _, t) => (.ok ⟨host, s.started⟩, { s with started := s.started + 1 }, t)
  | .copyTo host localPath remotePath =>
    let call := Ssh.copyTo s.config s.around host localPath remotePath
    let (result, _, t) := invoke t call
    (Ssh.readCopy call result, s, t)
  | .copyFrom host remotePath localPath =>
    let call := Ssh.copyFrom s.config s.around host remotePath localPath
    let (result, _, t) := invoke t call
    (Ssh.readCopy call result, s, t)
  | .close _ => (.ok (), s, t)

end Clients

end CloudFleet.Rehearsal
