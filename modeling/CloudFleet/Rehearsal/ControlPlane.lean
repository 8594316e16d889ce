import CloudFleet.Cloud.CallJson

/-!
# A control plane for rehearsals

A control plane that exists only in memory. Instances on their way to another state arrive there once they have been
described; calls fail where that is planned, and single answers may be scripted. `ControlPlane.answer` is the whole
machine: it lets a call in or refuses it, then carries it out.
-/

set_option autoImplicit false

namespace CloudFleet

namespace Rehearsal

/-- An instance as the control plane keeps it. -/
structure Machine where
  id : InstanceId
  region : Region
  /-- The name of its state, which need not be one that exists. -/
  state : String
  address : Option String
  /-- What its health check says. -/
  status : Option String
deriving DecidableEq

/-- An answer that was planned in place of the machine's own. -/
inductive Canned
  | failure (message : String)
  | dryRun
  | instances (records : List InstanceRecord)
  | statuses (records : List StatusRecord)
  /-- Success without effect. -/
  | done
  /-- The machine's own answer. -/
  | usual
deriving DecidableEq

/-- The control plane of all regions. -/
structure ControlPlane where
  /-- The regions that it knows. -/
  regions : List Region := []
  machines : List Machine := []
  images : List (Region × ImageRecord) := []
  groups : List (Region × String) := []
  /-- The ports that groups open. -/
  ingress : List (Region × String × UInt16) := []
  /-- The operations that fail, with their regions. -/
  failing : List (Region × String) := []
  /-- Answers planned for operations, each for one call. -/
  replies : List (Region × String × Canned) := []
  /-- How many instances were launched. -/
  launched : Nat := 0
  /-- How many more descriptions of instances are answered; all if absent. -/
  allowance : Option Nat := none

namespace ControlPlane

/-! ## States -/

/-- The address of an instance that runs. -/
def addressOf (id : InstanceId) (region : Region) : String := s!"{id}.{region.name}.compute.example.com"

/-- Where an instance on its way arrives. -/
def nextState? (state : String) : Option String :=
  [("pending", "running"), ("stopping", "stopped"), ("shutting-down", "terminated")].lookup state

/-- The machine with an address, if it has none yet. -/
def supply (m : Machine) : Machine := { m with address := some (m.address.getD (addressOf m.id m.region)) }

/-- The machine in a state; one that runs has an address. -/
def setState (m : Machine) (state : String) : Machine :=
  { (if state = "running" then supply m else m) with state }

/-- The machine one step further on its way. -/
def advance (m : Machine) : Machine :=
  match nextState? m.state with
  | some state => setState m state
  | none => m

/-- What the description of a machine says. -/
def record (m : Machine) : InstanceRecord := ⟨m.id, m.address, m.state⟩

/-- Whether a machine is asked for: one of the region, and one of those listed, if any is listed. -/
def asked (region : Region) (ids : List InstanceId) (m : Machine) : Bool :=
  m.region == region && (ids.isEmpty || ids.contains m.id)

/-- The plane with a changed machine in place of each that is asked for. -/
def update (p : ControlPlane) (region : Region) (ids : List InstanceId) (f : Machine → Machine) : ControlPlane :=
  { p with machines := p.machines.map fun m => if asked region ids m then f m else m }

/-- The state that a transition leads to; none if it leaves instances as they are. -/
def target? : Transition → Option String
  | .start => some "pending"
  | .stop => some "stopping"
  | .reboot => none
  | .terminate => some "shutting-down"

/-! ## Changes from outside -/

/-- A machine as it is set up: one that runs has an address unless it is said to have none. -/
def machine (id : InstanceId) (region : Region) (state : String) (address : Option (Option String))
    (status : Option String) : Machine :=
  ⟨id, region, state, address.getD (if state = "running" then some (addressOf id region) else none), status⟩

/-- The machine with some of its properties changed, the state first. -/
def edit (state : Option String) (address status : Option (Option String)) (m : Machine) : Machine :=
  let m := match state with
    | some state => setState m state
    | none => m
  { m with address := address.getD m.address, status := status.getD m.status }

/-- The plane with one machine more. -/
def add (p : ControlPlane) (m : Machine) : ControlPlane := { p with machines := p.machines ++ [m] }

/-- The plane with all machines of an identifier changed. -/
def change (p : ControlPlane) (id : InstanceId) (f : Machine → Machine) : ControlPlane :=
  { p with machines := p.machines.map fun m => if m.id = id then f m else m }

/-- Machines with the first one of an identifier changed. -/
def changeFirst (id : InstanceId) (f : Machine → Machine) : List Machine → List Machine
  | [] => []
  | m :: ms => if m.id = id then f m :: ms else m :: changeFirst id f ms

/-- The plane without the machines of an identifier. -/
def remove (p : ControlPlane) (id : InstanceId) : ControlPlane :=
  { p with machines := p.machines.filter fun m => m.id != id }

/-- The plane where an operation works again in a region. -/
def repair (p : ControlPlane) (region : Region) (operation : String) : ControlPlane :=
  { p with failing := p.failing.filter fun f => f != (region, operation) }

/-! ## Carrying calls out -/

/-- So many new machines of a region, numbered on from those launched before. -/
def newMachines (region : Region) (launched count : Nat) : List Machine :=
  (List.range count).map fun i =>
    ⟨s!"i-new-{launched + i + 1}", region, "pending", none, some "ok"⟩

/-- The plane after a call, and what the call gives back. -/
def carryOut (p : ControlPlane) : (c : CloudCall) → c.Reply × ControlPlane
  | .describeInstances region ids =>
    ((p.machines.filter (asked region ids)).map record, p.update region ids advance)
  | .describeStatuses region ids =>
    (((p.machines.filter fun m => asked region ids m && m.state == "running").map fun m => ⟨m.id, m.status⟩), p)
  | .transition kind region ids _ =>
    ((), match target? kind with
      | some state => { p with machines := p.machines.map fun m =>
          if m.region = region && ids.contains m.id then { m with state } else m }
      | none => p)
  | .launch region request _ =>
    let new := newMachines region p.launched request.count
    (new.map record, { p with machines := p.machines ++ new, launched := p.launched + request.count })
  | .describeImages region _ _ => ((p.images.filter fun i => i.1 == region).map Prod.snd, p)
  | .listGroups region => ((p.groups.filter fun g => g.1 == region).map Prod.snd, p)
  | .deleteGroup region name =>
    ((), { p with
      groups := p.groups.filter fun g => !(g.1 == region && g.2 == name)
      ingress := p.ingress.filter fun i => !(i.1 == region && i.2.1 == name) })
  | .createGroup region name _ => ((), { p with groups := p.groups ++ [(region, name)] })
  | .openPort region name port => ((), { p with ingress := p.ingress ++ [(region, name, port)] })

/-! ## Letting calls in -/

/-- The first planned answer for a call, and the plane without it. -/
def takeReply (p : ControlPlane) (c : CloudCall) : Canned × ControlPlane :=
  let isFor (r : Region × String × Canned) : Bool := r.1 == c.region && r.2.1 == c.operation
  match p.replies.find? isFor with
  | some r => (r.2.2, { p with replies := p.replies.eraseP isFor })
  | none => (.usual, p)

/-- The answer that was planned for a call, unless it is the usual one. -/
def scripted (c : CloudCall) : Canned → Option (Except CloudError c.Reply)
  | .failure message => some (.error (.api c.region c.operation message))
  | .dryRun => some (.error .dryRun)
  | .usual => none
  | .instances records =>
    match c with
    | .describeInstances .. | .launch .. => some (.ok records)
    | _ => none
  | .statuses records =>
    match c with
    | .describeStatuses .. => some (.ok records)
    | _ => none
  | .done =>
    match c with
    | .transition .. => some (.ok ())
    | _ => none

/-- Whether a call is a description of instances, which may be limited. -/
def isDescription : CloudCall → Bool
  | .describeInstances .. => true
  | _ => false

/-- The plane after it let a call through, or the refusal. -/
def accept (p : ControlPlane) (c : CloudCall) : Except CloudError ControlPlane :=
  if !p.regions.contains c.region then .error (.unknownRegion c.region)
  else if isDescription c then
    match p.allowance with
    | some 0 => .error (.api c.region c.operation "request limit exceeded")
    | some (n + 1) => .ok { p with allowance := some n }
    | none => .ok p
  else .ok p

/-- The answer to a call, and the plane after it. -/
def answer (p : ControlPlane) (c : CloudCall) : Except CloudError c.Reply × ControlPlane :=
  match p.accept c with
  | .error e => (.error e, p)
  | .ok p =>
    if p.failing.contains (c.region, c.operation) then
      (.error (.api c.region c.operation "injected failure"), p)
    else
      let (canned, p) := p.takeReply c
      match scripted c canned with
      | some reply => (reply, p)
      | none =>
        if c.isDryRun then (.error .dryRun, p)
        else
          let (reply, p) := p.carryOut c
          (.ok reply, p)

end ControlPlane

end Rehearsal

end CloudFleet
