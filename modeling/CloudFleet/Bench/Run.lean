import CloudFleet.Bench.Collect
import CloudFleet.Bench.Rounds
import CloudFleet.Bench.Schedule

/-!
# Benchmark runs

A run goes through its phases one after the other: connect, clean, sync, prepare, launch, wait, teardown, collect.
Nothing is launched unless every host answered and there are as many as the parameters say; every host is launched
with the rounds that the record gives it.
-/

set_option autoImplicit false

namespace CloudFleet

/-- A phase of a run. -/
inductive Phase
  | connect
  | clean
  | sync
  | prepare
  | launch
  | wait
  | teardown
  | collect
deriving DecidableEq

/-- The name of a phase. -/
def Phase.title : Phase → String
  | connect => "Connect"
  | clean => "Clean"
  | sync => "Sync"
  | prepare => "Prepare"
  | launch => "Launch"
  | wait => "Wait"
  | teardown => "Teardown"
  | collect => "Collect"

namespace Bench

/-- Tell that a phase begins. -/
def enter (phase : Phase) : BenchProgram Unit := .info s!"phase {phase.title}"

/-- The command that starts the workload; each host puts its rounds in the place of the mark. -/
def launchCommand (c : BenchConfig) (p : BenchParams) (schedule : Schedule) : String :=
  let float := Decimal.Layout.plain.text
  " ".intercalate
    [c.monitorCommand ++ " &> /dev/null &", "cd " ++ c.remotePath c.workloadDir ++ " &&", c.workloadCommand,
     "--start-at", "'" ++ schedule.start.stamp ++ "'", "--connection-lead-time", toString p.connectionLeadTime,
     "--propose-duration", float p.propose, "--acknowledge-duration", float p.acknowledge,
     "--vote-duration", float p.vote, "--num-rounds", hostArgMark, "> " ++ c.stdLog ++ " 2>&1"]

/-- Draw the rounds of the nodes, with more random words as long as there are too few. -/
def drawRounds (p : BenchParams) : (patience : Nat) → List UInt64 → BenchProgram (List UInt64)
  | patience, words =>
    match Rounds.assign p.numNodes.toNat p.numRounds p.adversary words with
    | some (rounds, _) => pure rounds
    | none =>
      match patience with
      | 0 => .stall
      | patience + 1 => do
        let more ← Program.request (.random (2 * p.numNodes.toNat))
        drawRounds p patience (words ++ more)

/-- The record of a run that is about to begin. -/
def newRecord (p : BenchParams) (schedule : Schedule) (hosts : List String) (rounds : List UInt64) : RunRecord where
  numNodes := p.numNodes
  numRounds := p.numRounds
  proposeDuration := p.propose
  acknowledgeDuration := p.acknowledge
  voteDuration := p.vote
  start := schedule.start
  finish := schedule.finish
  roundsPerHost := hosts.zip rounds
  results := []
  verdict := none
  dataDir := none

/-- The rounds of all hosts in one line. -/
def roundsText (rounds : List (String × UInt64)) : String :=
  "[" ++ ", ".intercalate (rounds.map fun entry => "(" ++ Text.quoted entry.1 ++ s!", {entry.2})") ++ "]"

/-- Tell when the run begins and ends. -/
def tellSchedule (schedule : Schedule) (r : RunRecord) : BenchProgram Unit := do
  .info s!"starting protocol at:        {schedule.start.text}"
  .info s!"protocol should complete at: {schedule.finish.text}"
  .info s!"total duration:              {schedule.total.tdiv (60 * nanosPerSecond)} min"
  .debug (roundsText r.roundsPerHost)

/-- The command that removes what an earlier monitor left behind. -/
def prepareCommand (c : BenchConfig) : String := s!"pkill -f {c.monitorPattern}; rm -f {c.statsFile}"

/-- The command that stops the monitor. -/
def teardownCommand (c : BenchConfig) : String := "pkill -f " ++ c.monitorPattern

/-- Connect to the running instances, end what is left of earlier runs and bring the payload up to date. -/
def begin (fc : FleetConfig) (c : BenchConfig) (f : Fleet) (p : BenchParams) : BenchProgram Unit := do
  enter .connect
  match ← Program.reportRemote (connect f) with
  | none => .bail "no running instances to run the benchmark on"
  | some _ =>
    enter .clean
    let _ ← Program.reportRemote (cleanup c)
    if p.sync then
      enter .sync
      let _ ← updatePayload fc c f false
    else pure ()

/-- Start the workload on every host and wait until it should have ended. -/
def execute (c : BenchConfig) (p : BenchParams) (schedule : Schedule) (rounds : List UInt64) : BenchProgram Unit := do
  enter .prepare
  let _ ← Program.reportRemote (Session.run (prepareCommand c) .tolerant)
  enter .launch
  let launch := launchCommand c p schedule
  .info launch
  Program.reportRemote (Session.spawn launch { pty := true, hostArgs := some (rounds.map toString) })
  enter .wait
  .info "waiting for protocol run to complete..."
  let now ← Program.request .now
  let _ ← Program.request (.sleep (schedule.remaining now))
  .info s!"protocol run should be finished now, waiting {c.postRunGrace.text} more"
  let _ ← Program.request (.sleep c.postRunGrace)

/-- Stop the monitor; a failure is only noted. -/
def teardown (c : BenchConfig) : BenchProgram Unit := do
  enter .teardown
  match ← (Session.run (teardownCommand c) .tolerant).attempt with
  | .ok _ => pure ()
  | .error e => .warn s!"stopping the monitor failed: {e.message}"

/-- Collect the results and the logs of a run. -/
def collect (c : BenchConfig) (r : RunRecord) : BenchProgram RunRecord := do
  enter .collect
  let judged ← collectResults c r
  let _ ← Program.ofExcept judged.result
  let kept ← collectLogs c judged.record
  let _ ← Program.ofExcept kept.result
  pure kept.record

/-- Run a benchmark on all running instances, and collect its results and logs. -/
def runBenchmark (fc : FleetConfig) (c : BenchConfig) (patience : Nat) (f : Fleet) (p : BenchParams) :
    BenchProgram RunRecord := do
  begin fc c f p
  let s ← Program.memory
  if s.hosts.length ≠ p.numNodes.toNat then
    .bail s!"expected {p.numNodes} running instance(s), found {s.hosts.length}"
  else
    let now ← Program.request .now
    match Schedule.new? now p with
    | none => .crash
    | some schedule =>
      let rounds ← drawRounds p patience []
      let record := newRecord p schedule s.hosts rounds
      tellSchedule schedule record
      execute c p schedule rounds
      teardown c
      collect c record

end Bench

end CloudFleet
