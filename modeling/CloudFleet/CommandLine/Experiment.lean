import CloudFleet.Fleet.Registry
import CloudFleet.Remote.Session
import CloudFleet.Report
import CloudFleet.World.Embed

/-!
# Experiments

All that is remembered while a command is carried out: the fleet and the session with its hosts.
-/

set_option autoImplicit false

namespace CloudFleet

/-- What is remembered of instances and hosts. -/
structure Experiment where
  fleet : Fleet := {}
  session : Session := {}

namespace Experiment

/-- A change of one or the other. -/
inductive Change
  | fleet (change : Fleet.Change)
  | session (change : Session.Change)

/-- The memory after a change. -/
def apply (x : Experiment) : Change → Experiment
  | .fleet c => { x with fleet := x.fleet.apply c }
  | .session c => { x with session := x.session.apply c }

instance : Memory Experiment := ⟨Change, apply⟩

variable {ε α : Type}

/-- A program on the fleet. -/
def onFleet (p : Program Fleet FleetError α) : Program Experiment Report α :=
  Program.reportFleet (p.embed Experiment.fleet Change.fleet)

/-- A program on the hosts. -/
def onHosts (p : Program Session Report α) : Program Experiment Report α := p.embed Experiment.session Change.session

/-- A program on the fleet changes the fleet as it does by itself. -/
theorem fleet_apply (x : Experiment) (c : Fleet.Change) : (x.apply (.fleet c)).fleet = x.fleet.apply c := rfl

/-- A program on the hosts changes the session as it does by itself. -/
theorem session_apply (x : Experiment) (c : Session.Change) :
    (x.apply (.session c)).session = x.session.apply c := rfl

end Experiment

end CloudFleet
