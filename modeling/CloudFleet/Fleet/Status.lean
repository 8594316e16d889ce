import CloudFleet.Fleet.Refresh

/-!
# The status of a fleet
-/

set_option autoImplicit false

namespace CloudFleet

/-- Every instance, and how many run in each region that has a running one. -/
structure StatusReport where
  instances : List Instance
  runningPerRegion : List (Region × Nat)

namespace StatusReport

/-- The number of running instances. -/
def running (r : StatusReport) : Nat := r.runningPerRegion.foldl (fun n entry => n + entry.2) 0

/-- A report for people: the instances line by line, then the numbers. -/
def text (r : StatusReport) : String :=
  String.join (r.instances.map fun i => i.text ++ "\n") ++ "\n" ++
    s!"number of running instances: {r.running}\n" ++
    String.join (r.runningPerRegion.map fun entry => tableRow entry.1.label entry.2 ++ "\n")

end StatusReport

namespace Fleet

/-- The report on a fleet as it is known. -/
def report (f : Fleet) : StatusReport :=
  ⟨f.instances, (Subset.byRegion f.running).map fun group => (group.1, group.2.length)⟩

/-- Refresh all regions and report. -/
def status (c : FleetConfig) : FleetProgram StatusReport := do
  refresh c .all
  let fleet ← Program.memory
  pure fleet.report

end Fleet

end CloudFleet
