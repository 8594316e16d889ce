import CloudFleet.Cloud.Call
import CloudFleet.Instance.State
import CloudFleet.Time.Duration
import CloudFleet.World.File

/-!
# How operations on a fleet fail
-/

set_option autoImplicit false

namespace CloudFleet

/-- Why an operation on the fleet failed. -/
inductive FleetError
  /-- The provider named a state that is none. -/
  | unknownState (name : String)
  /-- Nothing has the property described. -/
  | notFound (what : String)
  | indexOutOfRange (index : Int) (size : Nat)
  | invalidState (id : InstanceId) (state expected : InstanceState)
  | imageNotFound (region : Region)
  /-- Calls failed in some regions. -/
  | provider (failures : List Failure)
  /-- The fleet did not converge in time. -/
  | timeout (limit : Duration)
  | system (cause : SystemError)
deriving DecidableEq

/-- The wording of an error. -/
def FleetError.message : FleetError → String
  | unknownState name => s!"unknown instance state '{name}'"
  | notFound what => s!"no instance with {what} found"
  | indexOutOfRange index size => s!"index {index} out of range for {size} instance(s)"
  | invalidState id state expected =>
    s!"instance {id} in invalid state {state.title} (expected {expected.title})"
  | imageNotFound region => s!"no machine image found in region {region.name}"
  | provider failures =>
    let line := Failure.line failures
    s!"provider call failed in {failures.length} region(s): {line}"
  | timeout limit => s!"fleet did not converge within {limit.text}"
  | system cause => cause.text

end CloudFleet
