import CloudFleet.Region.Basic

/-!
# What the provider reports

The records in the answers of the control plane, and the request that launches instances. States are texts here:
what they mean is decided where they are read.
-/

set_option autoImplicit false

namespace CloudFleet

/-- The provider's identifier of an instance. -/
abbrev InstanceId := String

/-- An instance as the provider describes it. -/
structure InstanceRecord where
  id : InstanceId
  /-- Its public address, which may be absent or empty. -/
  address : Option String
  /-- The name of its state. -/
  state : String
deriving DecidableEq, Inhabited

/-- The provider's health check of an instance. -/
structure StatusRecord where
  id : InstanceId
  status : Option String
deriving DecidableEq, Inhabited

/-- A machine image. -/
structure ImageRecord where
  id : String
  /-- The date of its creation, as text that sorts by time. -/
  created : String
deriving DecidableEq, Inhabited

/-- What is needed to launch instances in a region. -/
structure LaunchRequest where
  image : String
  instanceType : String
  count : Nat
  userData : String
  securityGroup : String
  keyName : String
  shutdownBehavior : String
deriving DecidableEq, Inhabited

end CloudFleet
