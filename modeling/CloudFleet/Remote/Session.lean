import CloudFleet.Remote.Outcome
import CloudFleet.Remote.Quoting
import CloudFleet.Text.Blank
import CloudFleet.World.Program

/-!
# Sessions

A session is bound to a list of hosts. What it does it does on all of them at once, and it gathers what came of it
in the order of the hosts. `Session.narrowed` does something on other hosts for a while. Processes that were started
are kept until they are closed.
-/

set_option autoImplicit false

namespace CloudFleet

/-- What is remembered of the hosts. -/
structure Session where
  /-- The addresses of the bound hosts. -/
  hosts : List String := []
  /-- The instance behind each address. -/
  ids : List (String × InstanceId) := []
  /-- The processes that were started and not closed. -/
  processes : List Process := []
deriving Inhabited

namespace Session

/-- A change of what is remembered. -/
inductive Change
  /-- Other hosts, with their instances. -/
  | bound (hosts : List (String × InstanceId))
  /-- Other hosts; what instances are behind addresses stays. -/
  | aimed (hosts : List String)
  /-- A process was started. -/
  | started (process : Process)
  /-- All processes are given up. -/
  | released

/-- The session after a change. -/
def apply (s : Session) : Change → Session
  | .bound hosts => { s with hosts := hosts.map Prod.fst, ids := hosts.reverse }
  | .aimed hosts => { s with hosts }
  | .started process => { s with processes := s.processes ++ [process] }
  | .released => { s with processes := [] }

instance : Memory Session := ⟨Change, apply⟩

/-- The instance behind an address, the last one it was bound with. -/
def id? (s : Session) (host : String) : Option InstanceId := s.ids.lookup host

end Session

/-- A program on a session. -/
abbrev SessionProgram (α : Type) := Program Session RemoteError α

/-- The place in a command where each host's own argument goes. -/
def hostArgMark : String := "\x7b\x7d"

/-- How a command is run on the hosts. -/
structure RunOptions where
  /-- Run as the superuser. -/
  elevated : Bool := false
  /-- Run as this user. -/
  user : Option String := none
  /-- Fail for the first host that could not be made to run the command. -/
  stopOnErrors : Bool := true
  pty : Bool := false
  /-- An argument for each host, in the order of the hosts. -/
  hostArgs : Option (List String) := none
  /-- The time that each host has. -/
  timeout : Option Duration := none
  /-- The time that all hosts together have. -/
  dispatchTimeout : Option Duration := none
  /-- Fail if the command failed on any host. -/
  raiseOnFailure : Bool := true

/-- Options for a command that may fail. -/
def RunOptions.tolerant : RunOptions := { stopOnErrors := false, raiseOnFailure := false }

/-- One command, or several to be run one after the other. -/
inductive Script
  | single (command : String)
  | sequence (commands : List String)

namespace Session

/-- Change what is remembered. -/
def note {ε : Type} (c : Change) : Program Session ε Unit := Program.remember c

/-- A command under the user that the options ask for. -/
def elevate (options : RunOptions) (command : String) : String :=
  match options.user with
  | some user => s!"sudo -S -u {Remote.shellWord user} bash -c {Remote.shellWord command}"
  | none => if options.elevated then s!"sudo -S bash -c {Remote.shellWord command}" else command

/-- The command of one host. -/
def commandFor (options : RunOptions) (command : String) (arg : Option String) : String :=
  elevate options (match arg with
    | some arg => Text.replaceFirst command hostArgMark arg
    | none => command)

/-- The command of every host. -/
def commands (hosts : List String) (command : String) (options : RunOptions) :
    Except RemoteError (List (String × String)) :=
  if hosts.isEmpty then .error .notConnected
  else
    match options.hostArgs with
    | some args =>
      if args.length = hosts.length then
        .ok ((hosts.zip args).map fun entry => (entry.1, commandFor options command (some entry.2)))
      else .error (.hostArgs hosts.length args.length)
    | none => .ok (hosts.map fun host => (host, commandFor options command none))

/-- The end of a call for which only so much time is allowed. -/
def limited {α : Type} (limit : Option Duration) :
    Completion (Except TransportError α) → Completion (Except TransportError α)
  | .after delay value =>
    match limit with
    | some limit => if delay ≤ limit then .after delay value else .after limit (.error (.timeout limit))
    | none => .after delay value
  | .never =>
    match limit with
    | some limit => .after limit (.error (.timeout limit))
    | none => .never

/-- When all calls have ended, and with what; none if one never ends. -/
def gather {α : Type} : List (Completion α) → Option (Duration × List α)
  | [] => some (.zero, [])
  | .never :: _ => none
  | .after delay value :: rest =>
    (gather rest).map fun later => (Duration.max delay later.1, value :: later.2)

/-- The outcome of a command on a host. -/
def outcomeOf (s : Session) (host : String) : Except TransportError Output → Outcome
  | .ok output => ⟨host, s.id? host, output.exitCode, output.stdout, output.stderr, none⟩
  | .error error => ⟨host, s.id? host, none, "", "", some error⟩

/-- Wait until all calls have ended, but not longer than allowed. -/
def awaitAll {α : Type} (limit : Option Duration) (ends : List (Completion α)) : SessionProgram (List α) :=
  match gather ends, limit with
  | some (time, values), none => do
    let _ ← Program.request (.sleep time)
    pure values
  | some (time, values), some limit => do
    if time ≤ limit then
      let _ ← Program.request (.sleep time)
      pure values
    else
      let _ ← Program.request (.sleep limit)
      .raise (.dispatchTimeout limit)
  | none, some limit => do
    let _ ← Program.request (.sleep limit)
    .raise (.dispatchTimeout limit)
  | none, none => .stall

/-- Judge the outcomes of a command as the options ask. -/
def judge (options : RunOptions) (command : String) (outcomes : List Outcome) : SessionProgram RunResult := do
  match if options.stopOnErrors then outcomes.findSome? fun o => o.error.map fun e => (o.host, e) else none with
  | some (host, error) => .raise (.transport host error)
  | none =>
    let result : RunResult := ⟨command, outcomes⟩
    if options.raiseOnFailure && !result.isSuccess then
      Program.each (fun o => .warn (Outcome.text o)) outcomes
      .raise (.commandFailed command outcomes)
    else pure result

/-- Run a command on all bound hosts at once and wait for every one of them. -/
def run (command : String) (options : RunOptions) : SessionProgram RunResult := do
  let s ← Program.memory
  let commands ← Program.ofExcept (Session.commands s.hosts command options)
  let ends ← Program.collect (fun entry => .request (.shell (.exec entry.1 entry.2 options.pty))) commands
  let answers ← awaitAll options.dispatchTimeout (ends.map (limited options.timeout))
  judge options command ((commands.zip answers).map fun entry => outcomeOf s entry.1.1 entry.2)

/-- Run commands one after the other; the result is that of the last. -/
def runAll (options : RunOptions) (last : RunResult) : List String → SessionProgram RunResult
  | [] => pure last
  | command :: commands => do
    let result ← run command options
    runAll options result commands

/-- Run a script on all bound hosts. -/
def runScript (script : Script) (options : RunOptions) : SessionProgram RunResult :=
  match script with
  | .single command => run command options
  | .sequence commands => runAll options ⟨"", []⟩ commands

/-- Keep the processes that started; gives the first host where none did. -/
def keepStarted (command : String) :
    List (String × Except TransportError Process) → SessionProgram (Option RemoteError)
  | [] => pure none
  | (_, .ok process) :: rest => do
    note (Change.started process)
    keepStarted command rest
  | (host, .error error) :: rest => do
    .warn s!"failed to start '{command}' on {host}: {error.message}"
    let _ ← keepStarted command rest
    pure (some (.transport host error))

/-- Start a command on all bound hosts. Every process that started is kept, also if another host failed. -/
def spawn (command : String) (options : RunOptions) : SessionProgram Unit := do
  let s ← Program.memory
  let commands ← Program.ofExcept (Session.commands s.hosts command options)
  let answers ← Program.collect (fun entry => .request (.shell (.spawn entry.1 entry.2 options.pty))) commands
  match ← keepStarted command ((commands.map Prod.fst).zip answers) with
  | some error => .raise error
  | none => pure ()

/-- Start a command on one host, and keep its process. -/
def spawnOn (host command : String) (pty : Bool) : Program Session TransportError Process := do
  match ← Program.request (.shell (.spawn host command pty)) with
  | .ok process =>
    note (Change.started process)
    pure process
  | .error error => .raise error

/-- Success, or the first failed copy. -/
def settleCopies (hosts : List String) (answers : List (Except TransportError Unit)) : SessionProgram Unit :=
  match (hosts.zip answers).findSome? fun entry => match entry.2 with
      | .ok () => none
      | .error e => some (entry.1, e) with
  | some (host, error) => .raise (.copy host error)
  | none => pure ()

/-- Copy a local file to a path on all bound hosts. -/
def copyTo (localPath : Path) (remotePath : String) : SessionProgram Unit := do
  let s ← Program.memory
  if s.hosts.isEmpty then .raise .notConnected
  else
    let answers ← Program.collect (fun host => .request (.shell (.copyTo host localPath remotePath))) s.hosts
    settleCopies s.hosts answers

/-- The local path for a host's copy of a remote file. -/
def copyPath (dir : Path) (host remotePath : String) : Path :=
  Path.join dir (host ++ "_" ++ Path.lastSegment remotePath)

/-- Copy a file from all bound hosts into a local directory; gives the local paths. -/
def copyFrom (remotePath : String) (dir : Path) : SessionProgram (List Path) := do
  let s ← Program.memory
  if s.hosts.isEmpty then .raise .notConnected
  else
    let answers ← Program.collect
      (fun host => .request (.shell (.copyFrom host remotePath (copyPath dir host remotePath)))) s.hosts
    settleCopies s.hosts answers
    pure (s.hosts.map fun host => copyPath dir host remotePath)

/-- Bind the session to hosts. -/
def bind {ε : Type} (hosts : List (String × InstanceId)) : Program Session ε Unit :=
  note (Change.bound hosts)

/-- Aim at other hosts; gives the hosts until now. -/
def narrow {ε : Type} (hosts : List String) : Program Session ε (List String) := do
  let s ← Program.memory
  note (Change.aimed hosts)
  pure s.hosts

/-- Aim at the hosts of before. -/
def widen {ε : Type} (hosts : List String) : Program Session ε Unit :=
  note (Change.aimed hosts)

/-- Do something on other hosts, and come back to those of before however it ends. -/
def narrowed {ε α : Type} (hosts : List String) (p : Program Session ε α) : Program Session ε α := do
  let before ← narrow hosts
  let result ← p.attempt
  widen before
  .ofExcept result

/-- Give up all processes; gives them. -/
def release {ε : Type} : Program Session ε (List Process) := do
  let s ← Program.memory
  note Change.released
  pure s.processes

/-- Hang up on a process. -/
def hangUp {ε : Type} (process : Process) : Program Session ε (Except TransportError Unit) :=
  .request (.shell (.close process))

/-- Hang up on all processes, and forget them. -/
def closeAll {ε : Type} : Program Session ε (List (Except TransportError Unit)) := do
  let processes ← release
  Program.collect hangUp processes

end Session

end CloudFleet
