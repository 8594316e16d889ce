import CloudFleet.Cloud.Record
import CloudFleet.Instance.State

/-!
# Instances

The local picture of one instance. `Instance.enter` sets its state and keeps the reachability flag only from running
to running; `Instance.confirm` raises the flag of a running instance with an address; `Instance.load` takes over what
the provider reports. A flag that is up means that the instance runs and has been confirmed since it last entered
that state (`Instance.running_of_reachable_enter`).
-/

set_option autoImplicit false

namespace CloudFleet

/-- What is known of an instance. -/
structure Instance where
  id : InstanceId
  region : Region
  /-- Its public address. -/
  address : Option String
  state : InstanceState
  /-- Whether it runs and has answered a probe since it last began to run. -/
  reachable : Bool
  /-- The provider's last health check. -/
  status : Option String
deriving DecidableEq, Inhabited

namespace Instance

/-- An instance of which nothing but its state is known. -/
def new (id : InstanceId) (region : Region) (state : InstanceState) : Instance :=
  ⟨id, region, none, state, false, none⟩

/-- The instance in a state just observed: only one that keeps running stays reachable. -/
def enter (i : Instance) (state : InstanceState) : Instance :=
  { i with
    state
    reachable := i.reachable && decide (state = .running) && decide (i.state = .running) }

/-- Whether a probe may confirm the instance. -/
def confirmable (i : Instance) : Bool := decide (i.state = .running) && i.address.isSome

/-- The instance after a successful probe. -/
def confirm (i : Instance) : Instance := { i with reachable := i.confirmable }

/-- The instance after the provider reported it, with the state that the record names. -/
def load (i : Instance) (record : InstanceRecord) (state : InstanceState) (status : Option StatusRecord) :
    Instance :=
  { ({ i with address := record.address.filter (· != "") }).enter state with
    status := status.bind StatusRecord.status }

/-- One line on the instance, for people. -/
def text (i : Instance) : String :=
  let address := i.address.getD ""
  let status := i.status.getD ""
  s!"Instance(id='{i.id}', region='{i.region.name}', dnsname='{address}', " ++
    s!"state='{i.state.name}', reachable='{i.reachable}', status='{status}')"

@[simp] theorem id_enter (i : Instance) (s : InstanceState) : (i.enter s).id = i.id := rfl

@[simp] theorem id_load (i : Instance) (r : InstanceRecord) (s : InstanceState) (st : Option StatusRecord) :
    (i.load r s st).id = i.id := rfl

@[simp] theorem id_confirm (i : Instance) : i.confirm.id = i.id := rfl

@[simp] theorem state_enter (i : Instance) (s : InstanceState) : (i.enter s).state = s := rfl

/-- An instance that is reachable after it entered a state was reachable, ran before and runs now. -/
theorem running_of_reachable_enter {i : Instance} {s : InstanceState} (h : (i.enter s).reachable = true) :
    i.reachable = true ∧ i.state = .running ∧ s = .running := by
  simp only [enter, Bool.and_eq_true, decide_eq_true_eq] at h
  exact ⟨h.1.1, h.2, h.1.2⟩

end Instance

end CloudFleet
