import CloudFleet.Config.Basic
import CloudFleet.Fleet.NodeList
import CloudFleet.Remote.Session
import CloudFleet.Report
import CloudFleet.Text.Digest

/-!
# Deployment

`Bench.connect` binds the session to the running instances, `Bench.syncFile` brings a file on the hosts up to date by
its digest, `Bench.updatePayload` does so for all archives and unpacks them where one changed, and `Bench.cleanup`
ends what earlier runs left behind.
-/

set_option autoImplicit false

namespace CloudFleet

/-- A program on the hosts that reports its failures. -/
abbrev BenchProgram (α : Type) := Program Session Report α

/-- What an update of the payload did. -/
structure PayloadUpdate where
  /-- The hosts that got an archive, in the order of their names. -/
  updated : List String
  /-- The hosts that unpacked, in the order of the session. -/
  unpacked : List String
deriving DecidableEq

/-- How left-over processes ended. -/
inductive Shutdown
  /-- There was nothing left to kill. -/
  | graceful
  /-- At least one process was killed. -/
  | forced
deriving DecidableEq

/-- The word for how processes ended. -/
def Shutdown.title : Shutdown → String
  | graceful => "Graceful"
  | forced => "Forced"

namespace Bench

/-! ## Connecting -/

/-- The running instances with an address: the hosts to work on. -/
def hostsOf (f : Fleet) : List (String × InstanceId) :=
  f.running.filterMap fun i => i.address.map fun address => (address, i.id)

/-- The command that shows that a host answers. -/
def livenessCommand : String := "date"

/-- Bind the session to the running instances and have each of them answer. Nothing is done if none runs. -/
def connect (f : Fleet) : SessionProgram (Option RunResult) := do
  let hosts := hostsOf f
  if hosts.isEmpty then
    .info "no hosts to connect to"
    pure none
  else
    .info s!"connecting to {hosts.length} out of {f.size} instance(s)..."
    Session.bind hosts
    let result ← Session.run livenessCommand {}
    Program.each (fun o => .info s!"connected to {o.who}: {o.stdout}") result.outcomes
    pure (some result)

/-! ## Files -/

/-- The digest of a local file. -/
def fileDigest {τ : Type} [Memory τ] (path : Path) : Program τ Report String := do
  let bytes ← Program.within s!"read {path}" (Program.reportFile (.readBytes path))
  pure (Digest.digest bytes)

/-- The command that prints the digest of a remote file, or an empty line if there is none. -/
def digestCommand (remote : String) : String := s!"[ -f {remote} ] && sha256sum {remote} || echo \"\""

/-- The digest that a host printed: the first word. -/
def printedDigest (result : RunResult) (host : String) : Option String :=
  (result.outcome? host).bind fun o => Text.firstWord? o.stdout

/-- The first digits of a digest. -/
def shortDigest (digest : String) : String := .ofList (digest.toList.take 12)

/-- Copy a local file to all hosts where a file in the home directory has another digest; gives those hosts. -/
def syncFile (c : BenchConfig) (localPath : Path) (name : String) : BenchProgram (List String) := do
  let digest ← fileDigest localPath
  let remote := c.remotePath name
  let result ← Program.within s!"digest of {remote}" (Program.reportRemote (Session.run (digestCommand remote) {}))
  let s ← Program.memory
  let outdated := s.hosts.filter fun host => printedDigest result host != some digest
  let short := shortDigest digest
  if outdated.isEmpty then
    .info s!"({short}) {name} already up to date on all instances"
    pure outdated
  else
    .info s!"({short}) updating {name} on {outdated.length} instance(s)..."
    let copy := Session.narrowed outdated (Session.copyTo localPath remote)
    Program.within s!"copy {localPath}" (Program.reportRemote copy)
    pure outdated

/-! ## The payload -/

/-- The command that replaces the workload by the contents of the archives. -/
def unpackCommand (c : BenchConfig) : String :=
  " && ".intercalate
    (["cd " ++ c.remoteHome, "rm -rf " ++ c.workloadDir] ++ c.archives.map fun a => "unzip -o -q " ++ a)

/-- Build the archives, if there is a program for that. -/
def pack (c : BenchConfig) : BenchProgram Unit :=
  match c.packScript with
  | none => pure ()
  | some script => do
    .info "packing payload..."
    let status ← Program.within s!"run {script}" (Program.reportFile (.run script))
    if status.isSuccess then pure () else .bail s!"{script} failed: {status.text}"

/-- Sync the archives one after the other; gives the hosts that got one, once for each. -/
def syncArchives (c : BenchConfig) : List String → BenchProgram (List String)
  | [] => pure []
  | archive :: archives => do
    let outdated ← syncFile c (Path.join c.payloadDir archive) archive
    let rest ← syncArchives c archives
    pure (outdated ++ rest)

/-- Texts in order, each of them once. -/
def sorted (texts : List String) : List String := texts.eraseDups.mergeSort fun a b => decide (a ≤ b)

/-- Unpack on some of the hosts. -/
def unpack (c : BenchConfig) (hosts : List String) : BenchProgram Unit := do
  if hosts.isEmpty then .info "all instances already on the newest version"
  else
    .info s!"unpacking on {hosts.length} instance(s)..."
    let run := Session.narrowed hosts (Session.run (unpackCommand c) {})
    let _ ← Program.within "unpack" (Program.reportRemote run)

/-- Write the node list, build the archives, sync them, and unpack them on the hosts that got one, or on all. -/
def updatePayload (fc : FleetConfig) (c : BenchConfig) (f : Fleet) (always : Bool) : BenchProgram PayloadUpdate := do
  let list := f.writeNodeList fc.nodeListPath fc.nodeListPort
  let _ ← Program.within "node list" (Program.reportFleet list)
  pack c
  let updated ← syncArchives c c.archives
  let s ← Program.memory
  let unpacked := s.hosts.filter fun host => always || updated.contains host
  unpack c unpacked
  pure ⟨sorted updated, unpacked⟩

/-! ## Cleaning up -/

/-- Hang up on a process; a failure is only noted. -/
def closeProcess {ε : Type} (process : Process) : Program Session ε Unit := do
  match ← Session.hangUp process with
  | .ok () => pure ()
  | .error e => .warn s!"closing process on {process.host} failed: {e.message}"

/-- Close the processes that were started, and give them time to end. -/
def closeProcesses (c : BenchConfig) : SessionProgram Unit := do
  let processes ← Session.release
  if processes.isEmpty then pure ()
  else
    .info s!"stopping {processes.length} process(es) gracefully"
    Program.each closeProcess processes
    .request (.sleep c.shutdownGrace)

/-- Close the processes that were started, then kill whatever is left. -/
def cleanup (c : BenchConfig) : SessionProgram Shutdown := do
  closeProcesses c
  let result ← Session.run c.killCommand .tolerant
  -- the command ends with 0 only where it killed something
  if result.outcomes.any fun o => o.exitCode == some 0 then
    .warn "forcefully killed at least one running process"
    let _ ← Program.request (.sleep c.shutdownGrace)
    pure .forced
  else
    .info "graceful shutdown succeeded (or nothing was running)"
    pure .graceful

end Bench

end CloudFleet
