import CloudFleet.Random.Mix
import CloudFleet.Rehearsal.Clients
import CloudFleet.Rehearsal.ControlPlane
import CloudFleet.Rehearsal.Hosts
import CloudFleet.World.Request

/-!
# Stages

A stage is a whole world that exists only in memory: a control plane, hosts, files, a network and an operator. Sleeping
takes no time but moves a clock; the time of day and the stopwatch stand still.
-/

set_option autoImplicit false

namespace CloudFleet.Rehearsal

/-- How connections can be opened. -/
inductive Network
  /-- To every address but some. -/
  | allBut (blocked : List String)
  /-- To none. -/
  | unreachable
deriving DecidableEq

/-- What comes of opening a connection. -/
def Network.connect (address : String) : Network → Connection
  | allBut blocked => if blocked.contains address then .timedOut else .opened
  | unreachable => .refused "Network is unreachable (os error 101)"

/-- Hosts in memory, of a kind `η`. -/
class Shell (η : Type) where
  /-- The answer to a call, with the hosts and the local files after it. -/
  answer : η → FileTree → (c : ShellCall) → c.Reply × η × FileTree

instance : Shell Hosts := ⟨Hosts.answer⟩

instance : Shell Clients := ⟨Clients.answer⟩

/-- A world in memory, with hosts of a kind `η`. -/
structure Stage (η : Type) where
  shell : η
  files : FileTree
  plane : ControlPlane := {}
  network : Network := .allBut []
  /-- The answer of the operator. -/
  consent : Bool := false
  /-- The time slept so far. -/
  clock : Duration := .zero
  /-- The time of day. -/
  day : Instant := .ofNanos 1767225600000000000
  /-- Where the random words go on. -/
  seed : UInt64 := 0

namespace Stage

variable {η : Type} [Shell η]

/-- The answer to a call on the local machine, and the files after it. -/
def answerFile (t : FileTree) : (c : FileCall) → Except SystemError c.Reply × FileTree
  | .readText path => (t.read path, t)
  | .readBytes path => ((t.read path).map String.toUTF8, t)
  | .write path text => changed t (t.write path text)
  | .createDirs path => changed t (t.createDirs path)
  | .append path text => changed t (t.append path text)
  | .run program =>
    match Script.launch t program [] with
    | .ok (f, t) => (.ok f.status, t)
    | .error e => (.error e, t)
where
  /-- Success with the changed files, or the refusal with those of before. -/
  changed (t : FileTree) : Except SystemError FileTree → Except SystemError Unit × FileTree
    | .ok t => (.ok (), t)
    | .error e => (.error e, t)

/-- The stage as a world. -/
def world : World (Stage η) where
  answer
    | .cloud call, s =>
      let (reply, plane) := s.plane.answer call
      (reply, { s with plane })
    | .probe address _ _, s => (s.network.connect address, s)
    | .shell call, s =>
      let (reply, shell, files) := Shell.answer s.shell s.files call
      (reply, { s with shell, files })
    | .file call, s =>
      let (reply, files) := answerFile s.files call
      (reply, { s with files })
    | .confirm _, s => (s.consent, s)
    | .now, s => (s.day, s)
    | .stopwatch, s => (.zero, s)
    | .sleep length, s => ((), { s with clock := ⟨s.clock.nanos + length.nanos⟩ })
    | .random count, s =>
      let (words, seed) := Random.sequence s.seed count
      (words, { s with seed })
    | .announce _, s => ((), s)
    | .log _, s => ((), s)
    | .progress _, s => ((), s)

end Stage

end CloudFleet.Rehearsal
