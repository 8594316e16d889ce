import CloudFleet.Fleet.Image
import CloudFleet.Fleet.Poll

/-!
# Creating instances

`Fleet.create` launches what is missing from a plan. It looks up the images, computes the shortfall of each region,
asks the operator, and only then calls the regions; a region that fails does not keep the others from being called.
-/

set_option autoImplicit false

namespace CloudFleet

/-- How creating instances ended. -/
inductive Launch
  /-- The operator refused, and nothing was launched. -/
  | aborted
  | launched (s : Subset)

namespace Fleet

/-- Announce the images just found; a region without one is an error. -/
def announceImages : List (Region × Option String) → FleetProgram Unit
  | [] => pure ()
  | (region, none) :: _ => .raise (.imageNotFound region)
  | (region, some image) :: rest => do
    let _ ← Program.request (.announce (.imageSelected region image))
    announceImages rest

/-- Look up the images of the regions one by one; gives the regions that failed. -/
def selectImages (c : FleetConfig) : List Region → FleetProgram (List Failure)
  | [] => pure []
  | region :: regions => do
    match ← findImages c.imageOwner c.imageNamePattern [region] with
    | .ok found =>
      announceImages found
      selectImages c regions
    | .error e =>
      let failures ← selectImages c regions
      pure ((region, e) :: failures)

/-- What is missing from a plan in each of its regions. -/
def shortfall (f : Fleet) (plan : Plan) : List (Region × Nat) :=
  plan.regions.map fun r => (r, plan.count r - (f.running.filter fun i => i.region == r).length)

/-- The request that launches instances in a region. -/
def launchRequest (c : FleetConfig) (f : Fleet) (region : Region) (count : Nat) (userData : String) :
    Except FleetError LaunchRequest :=
  match f.image? region with
  | none => .error (.imageNotFound region)
  | some image =>
    .ok ⟨image, c.instanceType, count, userData, c.securityGroup, c.keyName, c.shutdownBehavior⟩

/-- Take over the instances just launched in a region; gives their identifiers. -/
def register (region : Region) : List InstanceRecord → FleetProgram (List InstanceId)
  | [] => pure []
  | record :: records =>
    match InstanceState.parse? record.state with
    | none => .raise (.unknownState record.state)
    | some state => do
      observe region ⟨record, state, none⟩
      let ids ← register region records
      pure (record.id :: ids)

/-- Launch in the regions one after the other; gives the regions that failed, and the new identifiers. -/
def launchGroups (c : FleetConfig) (userData : String) (dryRun : Bool) :
    List (Region × Nat) → FleetProgram (List Failure × List InstanceId)
  | [] => pure ([], [])
  | (region, count) :: groups => do
    let fleet ← Program.memory
    let request ← Program.ofExcept (launchRequest c fleet region count userData)
    match ← Cloud.launch region request dryRun with
    | .error e =>
      .warn s!"launch in {region.name} failed: {e.message}"
      let (failures, ids) ← launchGroups c userData dryRun groups
      pure ((region, e) :: failures, ids)
    | .ok records =>
      let _ ← Program.request (.announce (.launched region records.length))
      let new ← register region records
      let (failures, ids) ← launchGroups c userData dryRun groups
      pure (failures, new ++ ids)

/-- The text that new instances get to run. -/
def bootstrap (c : FleetConfig) : FleetProgram String :=
  match c.bootstrapScript with
  | none => pure ""
  | some path => do
    match ← Program.request (.file (.readText path)) with
    | .ok text => pure text
    | .error e => .raise (.system e)

/-- Launch a shortfall once the operator consents, and wait until the new instances are reachable. -/
def launchShortfall (c : FleetConfig) (patience : Nat) (dryRun : Bool) (missing : List (Region × Nat))
    (total : Nat) : FleetProgram Launch := do
  let userData ← bootstrap c
  if ← Program.request (.confirm s!"launch {total} instance(s)?") then
    let (failures, ids) ← launchGroups c userData dryRun (missing.filter fun entry => 0 < entry.2)
    settle failures
    if dryRun then pure (.launched [])
    else
      refresh c .all
      let fleet ← Program.memory
      let targets ← Program.ofExcept (fleet.resolve (.ids ids))
      let _ ← awaitReachable c patience targets
      let fleet ← Program.memory
      let launched ← Program.ofExcept (fleet.resolve (.subset targets))
      pure (.launched launched)
  else
    let _ ← Program.request (.announce .launchAborted)
    pure .aborted

/-- Launch what is missing from a plan. -/
def create (c : FleetConfig) (patience : Nat) (plan : Plan) (dryRun : Bool) : FleetProgram Launch := do
  let failures ← selectImages c plan.regions
  settle failures
  let fleet ← Program.memory
  let missing := fleet.shortfall plan
  match wordSum? (missing.map Prod.snd) with
  | none => .crash
  | some total =>
    let _ ← Program.request (.announce (.launchPlanned missing fleet.running.length total))
    if total = 0 then pure (.launched []) else launchShortfall c patience dryRun missing total

end Fleet

end CloudFleet
