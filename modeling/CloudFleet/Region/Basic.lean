/-!
# Regions

A region is known by its name. The regions of `Region.known` also have a label for people; all others are shown by
their names. `Region.defaults` lists the regions used when the configuration names none.
-/

set_option autoImplicit false

namespace CloudFleet

/-- A region of the cloud. -/
structure Region where
  /-- The name by which the provider knows it. -/
  name : String
deriving DecidableEq, Inhabited

namespace Region

/-- The regions with a label, in the order in which instances are placed. -/
def known : List (String × String) :=
  [("eu-west-3", "EU (Paris, eu-west-3)"),
   ("us-east-1", "US East (N. Virginia, us-east-1)"),
   ("us-west-1", "US West (N. California, us-west-1)"),
   ("ap-southeast-1", "Asia Pacific (Singapore, ap-southeast-1)"),
   ("ap-northeast-1", "Asia Pacific (Tokyo, ap-northeast-1)"),
   ("eu-west-1", "EU (Ireland, eu-west-1)"),
   ("ca-central-1", "Canada (Central, ca-central-1)"),
   ("eu-west-2", "EU (London, eu-west-2)"),
   ("ap-south-1", "Asia Pacific (Mumbai, ap-south-1)"),
   ("sa-east-1", "South America (Sao Paulo, sa-east-1)"),
   ("eu-central-1", "EU (Frankfurt, eu-central-1)"),
   ("eu-north-1", "EU (Stockholm, eu-north-1)"),
   ("us-east-2", "US East (Ohio, us-east-2)"),
   ("us-west-2", "US West (Oregon, us-west-2)"),
   ("ap-northeast-2", "Asia Pacific (Seoul, ap-northeast-2)"),
   ("ap-southeast-2", "Asia Pacific (Sydney, ap-southeast-2)")]

/-- The regions that offer enough instances of every kind: the first eight of the known ones. -/
def defaults : List Region := (known.take 8).map fun entry => ⟨entry.1⟩

/-- The label of a region, or its name where it has none. -/
def label (r : Region) : String := ((known.lookup r.name).getD r.name)

instance : ToString Region := ⟨name⟩

/-- Regions are ordered by name. -/
instance : LE Region := ⟨fun a b => a.name ≤ b.name⟩

instance (a b : Region) : Decidable (a ≤ b) := inferInstanceAs (Decidable (a.name ≤ b.name))

end Region

end CloudFleet
