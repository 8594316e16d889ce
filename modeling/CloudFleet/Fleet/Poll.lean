import CloudFleet.Fleet.Refresh

/-!
# Waiting for a fleet

`Fleet.pollUntil` refreshes again and again until a condition on the fleet holds. How often it may do so is bounded
only by its patience, which stands for the life of the caller: a wait that outlasts it stalls.
-/

set_option autoImplicit false

namespace CloudFleet.Fleet

/-- Fail if a limit has passed since a reading of the stopwatch. -/
def checkDeadline (limit : Option Duration) (start : Duration) : FleetProgram Unit :=
  match limit with
  | none => pure ()
  | some limit => do
    let now ← Program.request .stopwatch
    if limit ≤ Duration.sub now start then .raise (.timeout limit) else pure ()

/-- Go on polling after a number of polls. -/
def pollFrom (c : FleetConfig) (scope : Target) (limit : Option Duration) (done : Fleet → Bool) (start : Duration) :
    (patience polls : Nat) → FleetProgram Nat
  | 0, polls => do
    let fleet ← Program.memory
    if done fleet then
      let _ ← Program.request (.announce (.converged polls))
      pure polls
    else
      checkDeadline limit start
      .stall
  | patience + 1, polls => do
    let fleet ← Program.memory
    if done fleet then
      let _ ← Program.request (.announce (.converged polls))
      pure polls
    else
      checkDeadline limit start
      let _ ← Program.request (.sleep c.refreshInterval)
      refresh c scope
      let _ ← Program.request (.announce (.pollTick (polls + 1)))
      pollFrom c scope limit done start patience (polls + 1)

/-- Refresh the instances in scope until the condition holds, and give the number of polls that took. -/
def pollUntil (c : FleetConfig) (patience : Nat) (scope : Target) (limit : Option Duration) (done : Fleet → Bool) :
    FleetProgram Nat := do
  let start ← Program.request .stopwatch
  pollFrom c scope limit done start patience 0

/-- Wait until all of the instances are reachable. -/
def awaitReachable (c : FleetConfig) (patience : Nat) (targets : Subset) : FleetProgram Nat :=
  pollUntil c patience (.subset targets) c.convergenceTimeout fun f => f.allOf targets.ids Instance.reachable

end CloudFleet.Fleet
