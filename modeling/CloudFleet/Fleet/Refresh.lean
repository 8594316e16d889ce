import CloudFleet.Cloud.Inquiry
import CloudFleet.Config.Basic
import CloudFleet.Fleet.Target

/-!
# Refreshing a fleet

`Fleet.refresh` describes the targeted instances region by region, takes over what the provider reports, and probes
the running ones that have not been confirmed since they began to run. A region that fails is noted and passed over; a
state that is none ends the refresh before anything of its region is taken over.
-/

set_option autoImplicit false

namespace CloudFleet

/-- A program on a fleet. -/
abbrev FleetProgram (α : Type) := Program Fleet FleetError α

/-- A region with the identifiers to ask it for; none means all. -/
abbrev Group := Region × List InstanceId

/-- A record whose state has been read. -/
structure Observation where
  record : InstanceRecord
  state : InstanceState
  status : Option StatusRecord

namespace Fleet

/-- Read the states of all records; the first that is none is the error. -/
def readStates : List (InstanceRecord × Option StatusRecord) → Except FleetError (List Observation)
  | [] => .ok []
  | (record, status) :: rest =>
    match InstanceState.parse? record.state with
    | none => .error (.unknownState record.state)
    | some state =>
      match readStates rest with
      | .error e => .error e
      | .ok observations => .ok (⟨record, state, status⟩ :: observations)

/-- Take over what was observed of one instance; one that is new is announced. -/
def observe {ε : Type} (region : Region) (o : Observation) : Program Fleet ε Unit := do
  let fleet ← Program.memory
  if fleet.knows o.record.id then pure ()
  else
    let _ ← Program.request (.announce (.discovered o.record.id region))
    .remember (Change.added o.record.id region o.state)
  .remember (Change.loaded o.record o.state o.status)

/-- Describe the groups and take over the answers. Gives the regions that failed, and the number of instances that
were described. -/
def describeGroups : List Group → FleetProgram (List Failure × Nat)
  | [] => pure ([], 0)
  | (region, ids) :: groups => do
    match ← Cloud.describe region ids with
    | .error e =>
      .warn s!"describe in {region.name} failed: {e.message}"
      let (failures, seen) ← describeGroups groups
      pure ((region, e) :: failures, seen)
    | .ok described =>
      let observations ← Program.ofExcept (readStates described)
      Program.each (observe region) observations
      let (failures, seen) ← describeGroups groups
      pure (failures, observations.length + seen)

/-- Whether an instance belongs to one of the groups. -/
def inGroups (groups : List Group) (i : Instance) : Bool :=
  groups.any fun g => g.1 == i.region && (g.2.isEmpty || g.2.contains i.id)

/-- The instances to probe, with their addresses: those of the groups that run and are not confirmed. -/
def candidates (f : Fleet) (groups : List Group) : List (InstanceId × String) :=
  (f.filter fun i => inGroups groups i && i.state == .running && !i.reachable).filterMap fun i =>
    i.address.map fun address => (i.id, address)

/-- Probe an address. -/
def probe {ε : Type} (c : FleetConfig) (address : String) : Program Fleet ε Bool := do
  let connection ← Program.request (.probe address c.probePort c.probeTimeout)
  match connection.note? address c.probePort c.probeTimeout with
  | some line => Program.log line.level line.text
  | none => pure ()
  pure connection.isOpen

/-- Probe the instances of the groups that run and are not confirmed, then confirm those that answered. -/
def probeRunning {ε : Type} (c : FleetConfig) (groups : List Group) : Program Fleet ε Unit := do
  let fleet ← Program.memory
  let probed := fleet.candidates groups
  let results ← Program.collect (fun candidate => probe c candidate.2) probed
  Program.each (fun result => if result.2 then .remember (Change.confirmed result.1.1) else pure ())
    (probed.zip results)

/-- The groups of a target: all regions in full, or the targeted instances by region. -/
def groupsOf (c : FleetConfig) (f : Fleet) : Target → Except FleetError (List Group)
  | .all => .ok (c.regions.map fun r => (r, []))
  | target => (f.resolve target).map Subset.byRegion

/-- Success, or the failures. -/
def settle (failures : List Failure) : FleetProgram Unit :=
  if failures.isEmpty then pure () else .raise (.provider failures)

/-- Read the targeted instances again. With all instances as the target every region is described in full, and
instances that are new are added. -/
def refresh (c : FleetConfig) (target : Target) : FleetProgram Unit := do
  let fleet ← Program.memory
  let groups ← Program.ofExcept (groupsOf c fleet target)
  let (failures, seen) ← describeGroups groups
  probeRunning c groups
  let _ ← Program.request (.announce (.refreshed groups.length seen))
  settle failures

end Fleet

end CloudFleet
