import CloudFleet.Bench.Run
import CloudFleet.CommandLine.Command
import CloudFleet.CommandLine.Experiment
import CloudFleet.Fleet.Create
import CloudFleet.Fleet.Lifecycle
import CloudFleet.Fleet.SecurityGroup
import CloudFleet.Fleet.Status
import CloudFleet.World.Consent

/-!
# Carrying out a command

Every command begins with a look at all instances. `Command.carryOut` gives what is to be printed at the end.
-/

set_option autoImplicit false

namespace CloudFleet.Command

open Experiment

/-- Bind the session to the running instances, of which there must be some. -/
def connected (f : Fleet) : Program Experiment Report Unit := do
  match ← onHosts (Program.reportRemote (Bench.connect f)) with
  | some _ => pure ()
  | none => .bail "no running instances"

/-- The instances that a list names, or none if it is empty. -/
def targetOf (ids : List InstanceId) : Option Target := if ids.isEmpty then none else some (.ids ids)

/-- Launch what is missing. -/
def launchMissing (c : FleetConfig) (patience nodes : Nat) (dryRun yes : Bool) : Program Experiment Report Unit := do
  let launch := Fleet.create c patience (Plan.distribute nodes c.regions) dryRun
  match ← onFleet (if yes then launch.consenting else launch) with
  | .aborted => .info "launch aborted"
  | .launched s => .info s!"launched {s.length} instance(s): {Subset.text s}"

/-- Move instances. -/
def moveAll (c : FleetConfig) (patience : Nat) (kind : Transition) (target : Option Target) (dryRun : Bool) :
    Program Experiment Report Unit := do
  let (done, p) := match kind with
    | .start => ("started", Fleet.start c patience target dryRun)
    | .stop => ("stopped", Fleet.stop c patience target dryRun)
    | .reboot => ("rebooted", Fleet.reboot c patience target dryRun)
    | .terminate => ("terminated", Fleet.terminate c patience target dryRun)
  let moved ← onFleet p
  .info s!"{done} {Subset.text moved}"

/-- Run a command on the hosts; gives a line for each. -/
def runOnHosts (command : String) (noRaise : Bool) : Program Experiment Report String := do
  let result ← onHosts (Program.reportRemote (Session.run command (if noRaise then .tolerant else {})))
  pure (String.join (result.outcomes.map fun o => o.text ++ "\n"))

/-- What a command does after the first look at the instances. -/
def proceed (c : ExperimentConfig) (patience : Nat) (nodes : UInt64) :
    Command → Program Experiment Report String
  | status => do
    let report ← onFleet (Fleet.status c.fleet)
    pure report.text
  | create dryRun yes => do
    launchMissing c.fleet patience nodes.toNat dryRun yes
    pure ""
  | move kind ids dryRun => do
    moveAll c.fleet patience kind (targetOf ids) dryRun
    pure ""
  | wait => do
    let ready ← onFleet (Fleet.waitForStartup c.fleet patience none)
    .info s!"{ready.length} instance(s) reachable"
    pure ""
  | connect => do
    let x ← Program.memory
    let _ ← onHosts (Program.reportRemote (Bench.connect x.fleet))
    pure ""
  | deploy alwaysUnpack => do
    let x ← Program.memory
    connected x.fleet
    let update ← onHosts (Bench.updatePayload c.fleet c.bench x.fleet alwaysUnpack)
    .info s!"updated {update.updated.length} instance(s), unpacked on {update.unpacked.length}"
    pure ""
  | bench params => do
    let x ← Program.memory
    let record ← onHosts (Bench.runBenchmark c.fleet c.bench patience x.fleet { params with numNodes := nodes })
    match record.dataDir with
    | some dir => .info s!"run stored in {dir}"
    | none => pure ()
    pure ""
  | run command noRaise => do
    let x ← Program.memory
    connected x.fleet
    runOnHosts command noRaise
  | collect tag => do
    let x ← Program.memory
    connected x.fleet
    let dir ← onHosts (Bench.downloadLogs c.bench tag)
    .info s!"logs stored in {dir}"
    pure ""
  | securityGroups => do
    onFleet (Fleet.rebuildGroups c.fleet)
    pure ""
  | kill => do
    let x ← Program.memory
    connected x.fleet
    let shutdown ← onHosts (Program.reportRemote (Bench.cleanup c.bench))
    .info shutdown.title
    pure ""

/-- Carry out a command; gives what is to be printed. -/
def carryOut (c : ExperimentConfig) (patience : Nat) (nodes : UInt64) (command : Command) :
    Program Experiment Report String := do
  Program.within "initial refresh" (onFleet (Fleet.refresh c.fleet .all))
  command.proceed c patience nodes

end CloudFleet.Command
