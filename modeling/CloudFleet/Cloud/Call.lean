import CloudFleet.Cloud.Record

/-!
# Calls on the control plane

A `CloudCall` is one request to the provider, always for one region, and `CloudCall.Reply` is what a successful answer
holds. `CloudError` lists the ways in which a call fails; a provider answers a valid dry run by an error as well, which
`CloudError.forgive` turns into success for calls that were dry runs.
-/

set_option autoImplicit false

namespace CloudFleet

/-- A move in the life cycle that is requested for instances in bulk. -/
inductive Transition
  | start
  | stop
  | reboot
  | terminate
deriving DecidableEq, Inhabited

/-- The word for a transition. -/
def Transition.name : Transition → String
  | start => "start"
  | stop => "stop"
  | reboot => "reboot"
  | terminate => "terminate"

/-- A request to the control plane of one region. -/
inductive CloudCall
  /-- Describe the listed instances, or all if the list is empty. -/
  | describeInstances (region : Region) (ids : List InstanceId)
  /-- Report the health of the listed instances, or of all if the list is empty. -/
  | describeStatuses (region : Region) (ids : List InstanceId)
  | transition (kind : Transition) (region : Region) (ids : List InstanceId) (dryRun : Bool)
  | launch (region : Region) (request : LaunchRequest) (dryRun : Bool)
  | describeImages (region : Region) (owner namePattern : String)
  | listGroups (region : Region)
  | deleteGroup (region : Region) (name : String)
  | createGroup (region : Region) (name description : String)
  | openPort (region : Region) (name : String) (port : UInt16)
deriving DecidableEq

namespace CloudCall

/-- What a successful answer to a call holds. -/
@[reducible] def Reply : CloudCall → Type
  | describeInstances .. => List InstanceRecord
  | describeStatuses .. => List StatusRecord
  | transition .. => Unit
  | launch .. => List InstanceRecord
  | describeImages .. => List ImageRecord
  | listGroups .. => List String
  | deleteGroup .. => Unit
  | createGroup .. => Unit
  | openPort .. => Unit

/-- The region whose control plane is called. -/
def region : CloudCall → Region
  | describeInstances r _ | describeStatuses r _ | transition _ r _ _ | launch r _ _ | describeImages r _ _
  | listGroups r | deleteGroup r _ | createGroup r _ _ | openPort r _ _ => r

/-- Whether a call asks to be checked only, and not carried out. -/
def isDryRun : CloudCall → Bool
  | transition _ _ _ dryRun | launch _ _ dryRun => dryRun
  | _ => false

end CloudCall

/-- Why a call on the control plane failed. -/
inductive CloudError
  /-- A dry run that would have succeeded. -/
  | dryRun
  /-- There is no control plane for the region. -/
  | unknownRegion (region : Region)
  /-- The provider refused, or did not answer. -/
  | api (region : Region) (operation message : String)
deriving DecidableEq, Inhabited

namespace CloudError

/-- The wording of an error. -/
def message : CloudError → String
  | dryRun => "request would have succeeded, but the dry-run flag is set"
  | unknownRegion region => s!"no client for region {region.name}"
  | api region operation text => s!"{operation} failed in {region.name}: {text}"

/-- The answer to a call, where the signal that a dry run would have succeeded counts as success of a dry run. -/
def forgive {α : Type} (dry : Bool) (default : α) : Except CloudError α → Except CloudError α
  | .error .dryRun => if dry then .ok default else .error .dryRun
  | answer => answer

end CloudError

/-- A failed call, with the region it was for. -/
abbrev Failure := Region × CloudError

/-- Failed calls in one line. -/
def Failure.line (failures : List Failure) : String :=
  "; ".intercalate (failures.map fun f => s!"{f.1.name}: {f.2.message}")

end CloudFleet
