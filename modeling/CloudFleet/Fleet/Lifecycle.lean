import CloudFleet.Fleet.Poll

/-!
# Moving instances through their life cycle

Start, stop, reboot and terminate check the states of their targets first, then make one call per region, and last
wait until the targets have arrived. Right after a region's call its targets are taken to be on their way. A dry run
ends after the calls, and changes nothing.
-/

set_option autoImplicit false

namespace CloudFleet

/-- The state in which a transition is under way. -/
def Transition.underWay : Transition → InstanceState
  | start | reboot => .pending
  | stop => .stopping
  | terminate => .shuttingDown

namespace Fleet

/-- The instances that a target names, or the default. -/
def targetsOr (target : Option Target) (default : Fleet → Subset) : FleetProgram Subset := do
  let fleet ← Program.memory
  match target with
  | some target => .ofExcept (fleet.resolve target)
  | none => pure (default fleet)

/-- Fail for the first instance that is not in a state. -/
def requireState (expected : InstanceState) (targets : Subset) : FleetProgram Unit :=
  match targets.find? fun i => i.state != expected with
  | some i => .raise (.invalidState i.id i.state expected)
  | none => pure ()

/-- Call the regions one after the other; gives those that failed. -/
def transitionGroups (kind : Transition) (dryRun : Bool) : List Group → FleetProgram (List Failure)
  | [] => pure []
  | (region, ids) :: groups => do
    let _ ← Program.request (.announce (.transitionRequested kind region ids dryRun))
    match ← Cloud.transition kind region ids dryRun with
    | .ok () =>
      if dryRun then pure () else Program.each (fun id => .remember (Change.entered id kind.underWay)) ids
      transitionGroups kind dryRun groups
    | .error e =>
      .warn s!"{kind.name} in {region.name} failed: {e.message}"
      let failures ← transitionGroups kind dryRun groups
      pure ((region, e) :: failures)

/-- Request a transition of the targets, with one call per region. -/
def transition (kind : Transition) (targets : Subset) (dryRun : Bool) : FleetProgram Unit := do
  let failures ← transitionGroups kind dryRun (Subset.byRegion targets)
  settle failures

/-- The instances of an earlier subset as they are now. -/
def reread (targets : Subset) : FleetProgram Subset := do
  let fleet ← Program.memory
  .ofExcept (fleet.resolve (.subset targets))

/-- Start stopped instances and wait until they are reachable. -/
def start (c : FleetConfig) (patience : Nat) (target : Option Target) (dryRun : Bool) : FleetProgram Subset := do
  let targets ← targetsOr target fun f => f.inState .stopped
  requireState .stopped targets
  transition .start targets dryRun
  if dryRun then pure () else
    let _ ← awaitReachable c patience targets
  reread targets

/-- Wait until the targets are in one of some states. -/
def awaitStates (c : FleetConfig) (patience : Nat) (states : List InstanceState) (targets : Subset) :
    FleetProgram Nat :=
  pollUntil c patience (.subset targets) c.convergenceTimeout fun f =>
    f.allOf targets.ids fun i => states.contains i.state

/-- Stop running instances and wait until they have stopped. -/
def stop (c : FleetConfig) (patience : Nat) (target : Option Target) (dryRun : Bool) : FleetProgram Subset := do
  let targets ← targetsOr target running
  requireState .running targets
  transition .stop targets dryRun
  if dryRun then pure () else
    let _ ← awaitStates c patience [.stopped, .terminated] targets
  reread targets

/-- Reboot running instances and wait until they are reachable again. -/
def reboot (c : FleetConfig) (patience : Nat) (target : Option Target) (dryRun : Bool) : FleetProgram Subset := do
  let targets ← targetsOr target running
  requireState .running targets
  transition .reboot targets dryRun
  if dryRun then pure () else
    let _ ← awaitReachable c patience targets
  reread targets

/-- Terminate instances and wait until they are gone. -/
def terminate (c : FleetConfig) (patience : Nat) (target : Option Target) (dryRun : Bool) : FleetProgram Subset := do
  let targets ← targetsOr target fun f => f.filter fun i => i.state != .terminated
  transition .terminate targets dryRun
  if dryRun then pure () else
    let _ ← awaitStates c patience [.terminated] targets
  reread targets

/-- Wait until instances are reachable; by default those that are pending or running. -/
def waitForStartup (c : FleetConfig) (patience : Nat) (target : Option Target) : FleetProgram Subset := do
  let targets ← targetsOr target fun f => f.filter fun i => i.state == .pending || i.state == .running
  let _ ← awaitReachable c patience targets
  reread targets

end Fleet

end CloudFleet
