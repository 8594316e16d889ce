import CloudFleet.Instance.Basic
import CloudFleet.World.Program

/-!
# The registry of a fleet

A fleet remembers every instance it ever saw, in the order of discovery, and the machine image it found for each
region. Its memory changes in five ways (`Fleet.Change`): an instance is added, an instance takes over what the
provider reports, enters a state, is confirmed by a probe, and an image is found. None of them removes an instance or
changes its identity or its region.
-/

set_option autoImplicit false

namespace CloudFleet

/-- Some instances, as they were when they were looked up. -/
abbrev Subset := List Instance

namespace Subset

/-- The identifiers of the instances. -/
def ids (s : Subset) : List InstanceId := s.map Instance.id

/-- The identifiers between brackets. -/
def text (s : Subset) : String := "[" ++ ", ".intercalate s.ids ++ "]"

/-- Groups with an identifier added to the group of its region, a new last one if there is none yet. -/
def addToGroups (region : Region) (id : InstanceId) :
    List (Region × List InstanceId) → List (Region × List InstanceId)
  | [] => [(region, [id])]
  | (r, ids) :: groups => if r = region then (r, ids ++ [id]) :: groups else (r, ids) :: addToGroups region id groups

/-- The identifiers by region, the regions in the order of their first instances. -/
def byRegion (s : Subset) : List (Region × List InstanceId) :=
  s.foldl (fun groups i => addToGroups i.region i.id groups) []

end Subset

/-- What is known of all instances. -/
structure Fleet where
  /-- Every instance ever seen, in the order of discovery. -/
  instances : List Instance := []
  /-- The machine image found for a region. -/
  images : List (Region × String) := []
deriving Inhabited

namespace Fleet

/-- A change of what is known. -/
inductive Change
  /-- An instance that was not known before. -/
  | added (id : InstanceId) (region : Region) (state : InstanceState)
  /-- The provider reported an instance. -/
  | loaded (record : InstanceRecord) (state : InstanceState) (status : Option StatusRecord)
  /-- An instance is taken to be in a state. -/
  | entered (id : InstanceId) (state : InstanceState)
  /-- An instance answered a probe. -/
  | confirmed (id : InstanceId)
  /-- A region has an image. -/
  | imageFound (region : Region) (image : String)

/-- The fleet with one instance updated. -/
def update (f : Fleet) (id : InstanceId) (change : Instance → Instance) : Fleet :=
  { f with instances := f.instances.map fun i => if i.id = id then change i else i }

/-- The fleet after a change. -/
def apply (f : Fleet) : Change → Fleet
  | .added id region state => { f with instances := f.instances ++ [.new id region state] }
  | .loaded record state status => f.update record.id fun i => i.load record state status
  | .entered id state => f.update id fun i => i.enter state
  | .confirmed id => f.update id Instance.confirm
  | .imageFound region image => { f with images := f.images ++ [(region, image)] }

instance : Memory Fleet := ⟨Change, apply⟩

/-- The number of instances. -/
def size (f : Fleet) : Nat := f.instances.length

/-- The instance with an identifier. -/
def get? (f : Fleet) (id : InstanceId) : Option Instance := f.instances.find? fun i => i.id == id

/-- Whether an identifier is known. -/
def knows (f : Fleet) (id : InstanceId) : Bool := (f.get? id).isSome

/-- The instances with a property. -/
def filter (f : Fleet) (p : Instance → Bool) : Subset := List.filter p f.instances

/-- The instances in a state. -/
def inState (f : Fleet) (state : InstanceState) : Subset := f.filter fun i => i.state == state

/-- The instances that run. -/
def running (f : Fleet) : Subset := f.inState .running

/-- All instances by region, the regions in the order of their names. -/
def byRegion (f : Fleet) : List (Region × Subset) :=
  let regions := ((f.instances.map Instance.region).eraseDups).mergeSort fun a b => decide (a ≤ b)
  regions.map fun r => (r, f.filter fun i => i.region == r)

/-- Whether all of the instances are known and have a property. -/
def allOf (f : Fleet) (ids : List InstanceId) (p : Instance → Bool) : Bool :=
  ids.all fun id => (f.get? id).any p

/-- The image found for a region. -/
def image? (f : Fleet) (r : Region) : Option String := f.images.lookup r

end Fleet

end CloudFleet
