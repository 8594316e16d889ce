import CloudFleet.Remote.Output
import CloudFleet.Rehearsal.FileTree
import CloudFleet.Text.Blank

/-!
# Hosts for rehearsals

Hosts that exist only in memory. A command is answered by the last matching response, at once or after the delay of
its host; hosts may hang, be out of reach, or fail in what is asked of them.
-/

set_option autoImplicit false

namespace CloudFleet.Rehearsal

/-- What hosts answer to commands. -/
structure Response where
  /-- The host that answers so; any if absent. -/
  host : Option String
  /-- The text that commands contain. -/
  pattern : String
  answer : Except TransportError Output

/-- The hosts, by what is special about them. -/
structure Hosts where
  responses : List Response := []
  unreachable : List String := []
  /-- Hosts where nothing can be started. -/
  noSpawn : List String := []
  noCopy : List String := []
  /-- Hosts whose processes cannot be closed. -/
  noClose : List String := []
  /-- Hosts where commands never end. -/
  hanging : List String := []
  /-- How long commands take. -/
  delays : List (String × Duration) := []
  /-- How many processes were started. -/
  started : Nat := 0

namespace Hosts

/-- The hosts with what is special about others added. -/
def merge (h more : Hosts) : Hosts where
  responses := h.responses ++ more.responses
  unreachable := h.unreachable ++ more.unreachable
  noSpawn := h.noSpawn ++ more.noSpawn
  noCopy := h.noCopy ++ more.noCopy
  noClose := h.noClose ++ more.noClose
  hanging := h.hanging ++ more.hanging
  delays := h.delays ++ more.delays
  started := h.started

/-- Success, unless a host is out of reach. -/
def reach (h : Hosts) (host : String) : Except TransportError Unit :=
  if h.unreachable.contains host then .error (.unreachable host "connection refused") else .ok ()

/-- Whether a response is for a command on a host. -/
def applies (host command : String) (r : Response) : Bool :=
  (r.host.getD host) == host && Text.contains command r.pattern

/-- What a host answers to a command. -/
def respond (h : Hosts) (host command : String) : Except TransportError Output := do
  h.reach host
  match h.responses.reverse.find? (applies host command) with
  | some r => r.answer
  | none => .ok (.ok "")

/-- When and with what a command ends. -/
def exec (h : Hosts) (host command : String) : Completion (Except TransportError Output) :=
  if h.hanging.contains host then .never else .after ((h.delays.lookup host).getD .zero) (h.respond host command)

/-- Start a process. -/
def spawn (h : Hosts) (host : String) : Except TransportError Process × Hosts :=
  match h.reach host with
  | .error e => (.error e, h)
  | .ok () =>
    if h.noSpawn.contains host then (.error (.spawn "ssh" ⟨false, "broken pipe"⟩), h)
    else (.ok ⟨host, h.started⟩, { h with started := h.started + 1 })

/-- Copy a file to a host. -/
def copyTo (h : Hosts) (host : String) : Except TransportError Unit := do
  h.reach host
  if h.noCopy.contains host then .error (.exit "scp" (some 1) "permission denied") else .ok ()

/-- Copy a file from a host, with a content that says where it comes from. -/
def copyFrom (h : Hosts) (t : FileTree) (host remotePath : String) (localPath : Path) :
    Except TransportError FileTree := do
  h.reach host
  if h.noCopy.contains host then .error (.exit "scp" none "")
  else
    match t.write localPath (host ++ ":" ++ remotePath) with
    | .ok t => .ok t
    | .error e => .error (.system e)

/-- Close a process. -/
def close (h : Hosts) (process : Process) : Except TransportError Unit :=
  if h.noClose.contains process.host then .error (.system ⟨false, "close failed"⟩) else .ok ()

/-- The answer to a call, with the hosts and the local files after it. -/
def answer (h : Hosts) (t : FileTree) : (c : ShellCall) → c.Reply × Hosts × FileTree
  | .exec host command _ => (h.exec host command, h, t)
  | .spawn host _ _ =>
    let (reply, h) := h.spawn host
    (reply, h, t)
  | .copyTo host _ _ => (h.copyTo host, h, t)
  | .copyFrom host remotePath localPath =>
    match h.copyFrom t host remotePath localPath with
    | .ok t => (.ok (), h, t)
    | .error e => (.error e, h, t)
  | .close process => (h.close process, h, t)

end Hosts

end CloudFleet.Rehearsal
