import CloudFleet.Bench.Params
import CloudFleet.Cloud.Call
import CloudFleet.CommandLine.Arguments
import CloudFleet.Decimal.Reading
import CloudFleet.World.File

/-!
# Commands

What can be asked of the program on a command line, and how a line is read (`CommandLine.read`).
-/

set_option autoImplicit false

namespace CloudFleet

/-- What the program is asked to do. -/
inductive Command
  /-- Show the instances. -/
  | status
  /-- Launch what is missing. -/
  | create (dryRun yes : Bool)
  /-- Move the listed instances, or all in the right state if none is listed. -/
  | move (kind : Transition) (ids : List InstanceId) (dryRun : Bool)
  /-- Wait until the instances are reachable. -/
  | wait
  /-- See whether the hosts answer. -/
  | connect
  /-- Bring the payload on the hosts up to date. -/
  | deploy (alwaysUnpack : Bool)
  /-- Run a benchmark, on as many nodes as the command line says. -/
  | bench (params : BenchParams)
  /-- Run a command on the hosts. -/
  | run (command : String) (noRaise : Bool)
  /-- Download the logs. -/
  | collect (tag : String)
  /-- Rebuild the security groups. -/
  | securityGroups
  /-- End what is left on the hosts. -/
  | kill

/-- A command with what holds for every command. -/
structure CommandLine where
  /-- The file of the configuration, if it is named here. -/
  config : Option Path
  /-- How many nodes the fleet should have. -/
  nodes : UInt64
  command : Command

namespace CommandLine

/-! ## Values -/

/-- A word of 64 bits. -/
def word? (s : String) : Option UInt64 := (Decimal.unsigned? (1 <<< 64) s).map UInt64.ofNat

/-- Whether a value is a word of 64 bits. -/
def isWord (s : String) : Bool := (word? s).isSome

/-- Whether a value is a number. -/
def isReal (s : String) : Bool := (Decimal.real? s).isSome

/-- Whether a value is the path of something. -/
def isPath (s : String) : Bool := !s.isEmpty

/-- How many nodes there should be if nothing is said. -/
def defaultNodes : UInt64 := 5

/-! ## Grammars -/

/-- The grammar of each command. -/
def commands : List (String × Grammar) :=
  let moving : Grammar := { flags := ["dry-run"], operands := none }
  [("status", {}), ("create", { flags := ["dry-run", "yes"] }), ("start", moving), ("stop", moving),
   ("reboot", moving), ("terminate", moving), ("wait", {}), ("connect", {}),
   ("deploy", { flags := ["always-unpack"] }),
   ("bench",
    { flags := ["adversary", "inclusive-adversary-bound", "no-sync"],
      options := [("rounds", isWord), ("duration", isReal), ("propose", isReal), ("acknowledge", isReal),
        ("vote", isReal), ("startup-delay", isWord), ("connection-lead-time", isWord)] }),
   ("run", { flags := ["no-raise"], operands := some 1 }),
   ("collect", { options := [("tag", fun _ => true)] }), ("security-groups", {}), ("kill", {})]

/-- The grammar of what stands in front of the command. -/
def leading : Grammar where
  options := [("config", isPath), ("nodes", isWord)]
  stops := "help" :: commands.map Prod.fst

/-! ## Commands from arguments -/

/-- The benchmark that arguments describe. A bound for those that stop early needs some that do. -/
def bench? (a : Arguments) : Option Command := do
  let rounds ← (a.option? "rounds").bind word?
  let seconds (name : String) : Option Float := (a.option? name).bind Decimal.real?
  let word (name : String) (default : UInt64) : UInt64 := ((a.option? name).bind word?).getD default
  let adversary ← match a.flag "adversary", a.flag "inclusive-adversary-bound" with
    | false, false => some none
    | false, true => none
    | true, false => some (some RoundBound.exclusive)
    | true, true => some (some RoundBound.inclusive)
  pure (.bench {
    numNodes := defaultNodes
    numRounds := rounds
    duration := (seconds "duration").getD 2.0
    proposeDuration := seconds "propose"
    acknowledgeDuration := seconds "acknowledge"
    voteDuration := seconds "vote"
    startupDelay := word "startup-delay" 60
    connectionLeadTime := word "connection-lead-time" 20
    adversary
    sync := !a.flag "no-sync" })

/-- The command of a name with arguments; none if one is missing. -/
def command? (name : String) (a : Arguments) : Option Command :=
  let move (kind : Transition) : Command := .move kind a.operands (a.flag "dry-run")
  match name with
  | "status" => some .status
  | "create" => some (.create (a.flag "dry-run") (a.flag "yes"))
  | "start" => some (move .start)
  | "stop" => some (move .stop)
  | "reboot" => some (move .reboot)
  | "terminate" => some (move .terminate)
  | "wait" => some .wait
  | "connect" => some .connect
  | "deploy" => some (.deploy (a.flag "always-unpack"))
  | "bench" => bench? a
  | "run" => a.operands.head?.map fun command => .run command (a.flag "no-raise")
  | "collect" => (a.option? "tag").map Command.collect
  | "security-groups" => some .securityGroups
  | "kill" => some .kill
  | _ => none

/-- What comes of asking for help on a command, or on everything. -/
def helpOn : List String → UsageError
  | [] => .helpWanted
  | [name] => if leading.stops.contains name then .helpWanted else .malformed
  | _ => .malformed

/-- Read the words behind the name of a command. -/
def readCommand (name : String) (words : List String) : Except UsageError Command := do
  let g := (commands.lookup name).getD {}
  let (a, _) ← g.read {} none words
  let a ← a.settle g
  match command? name a with
  | some command => pure command
  | none => .error .malformed

/-- Read the words of a command line. -/
def read (words : List String) : Except UsageError CommandLine := do
  let (a, rest) ← leading.read {} none words
  match rest with
  | [] => .error .malformed
  | name :: words =>
    if name = "help" then .error (helpOn words)
    else
      let command ← readCommand name words
      let a ← a.settle leading
      pure ⟨a.option? "config", ((a.option? "nodes").bind word?).getD defaultNodes, command⟩

end CommandLine

end CloudFleet
