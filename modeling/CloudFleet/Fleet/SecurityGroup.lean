import CloudFleet.Fleet.Refresh

/-!
# Security groups

The configured group is rebuilt in every region: deleted if it is there, created, and its ports opened. A region that
fails does not keep the others from being rebuilt.
-/

set_option autoImplicit false

namespace CloudFleet.Fleet

/-- Open ports of the group one after the other, up to the first that fails. -/
def openPorts (region : Region) (name : String) : List UInt16 → FleetProgram (Cloud.Answer Unit)
  | [] => pure (.ok ())
  | port :: ports => do
    match ← Cloud.call (.openPort region name port) with
    | .error e => pure (.error e)
    | .ok () =>
      let _ ← Program.request (.announce (.portOpened region port))
      openPorts region name ports

/-- Delete the group if it is among those that exist. -/
def deleteGroup (region : Region) (name : String) (existing : List String) : FleetProgram (Cloud.Answer Unit) := do
  if existing.contains name then
    match ← Cloud.call (.deleteGroup region name) with
    | .error e => pure (.error e)
    | .ok () =>
      let _ ← Program.request (.announce (.groupDeleted region))
      pure (.ok ())
  else pure (.ok ())

/-- Rebuild the group of a region. -/
def rebuildGroup (c : FleetConfig) (region : Region) : FleetProgram (Cloud.Answer Unit) := do
  match ← Cloud.call (.listGroups region) with
  | .error e => pure (.error e)
  | .ok existing =>
    match ← deleteGroup region c.securityGroup existing with
    | .error e => pure (.error e)
    | .ok () =>
      match ← Cloud.call (.createGroup region c.securityGroup c.securityGroupDescription) with
      | .error e => pure (.error e)
      | .ok () =>
        let _ ← Program.request (.announce (.groupCreated region))
        openPorts region c.securityGroup c.ingressPorts

/-- Rebuild the groups of the regions; gives those that failed. -/
def rebuildGroupsOf (c : FleetConfig) : List Region → FleetProgram (List Failure)
  | [] => pure []
  | region :: regions => do
    match ← rebuildGroup c region with
    | .ok () => rebuildGroupsOf c regions
    | .error e =>
      .warn s!"security group in {region.name} failed: {e.message}"
      let failures ← rebuildGroupsOf c regions
      pure ((region, e) :: failures)

/-- Rebuild the security group in every configured region. -/
def rebuildGroups (c : FleetConfig) : FleetProgram Unit := do
  let failures ← rebuildGroupsOf c c.regions
  settle failures

end CloudFleet.Fleet
