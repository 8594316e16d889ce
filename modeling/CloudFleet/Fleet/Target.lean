import CloudFleet.Fleet.Error
import CloudFleet.Fleet.Registry
import CloudFleet.Text.Quoted

/-!
# Targets

A target names the instances that an operation is for. `Fleet.resolve` looks them up: the result holds the current
entries of the registry, and fails for the first identifier that is not known.
-/

set_option autoImplicit false

namespace CloudFleet

/-- The instances that an operation is for. -/
inductive Target
  | all
  | id (id : InstanceId)
  /-- The instance at a position in the order of discovery; negative positions count from the end. -/
  | index (i : Int)
  | ids (ids : List InstanceId)
  /-- The instances of an earlier subset, as they are now. -/
  | subset (s : Subset)
  | matching (p : Instance → Bool)

/-- A target in one line. -/
def Target.text : Target → String
  | all => "All"
  | id i => s!"Id({i})"
  | index i => s!"Index({i})"
  | ids is => "Ids(" ++ Text.quotedList is ++ ")"
  | subset s => "Subset(" ++ Subset.text s ++ ")"
  | matching _ => "Matching(..)"

/-- A list without the entries that occurred before. -/
def firstMentions : List InstanceId → List InstanceId
  | [] => []
  | id :: ids => id :: (firstMentions ids).filter (· != id)

namespace Fleet

/-- The entry of an identifier. -/
def lookup (f : Fleet) (id : InstanceId) : Except FleetError Instance :=
  match f.get? id with
  | some i => .ok i
  | none => .error (.notFound s!"id {id}")

/-- The entries of identifiers; the first that is not known is the error. -/
def lookupAll (f : Fleet) : List InstanceId → Except FleetError Subset
  | [] => .ok []
  | id :: ids =>
    match f.lookup id with
    | .error e => .error e
    | .ok i =>
      match lookupAll f ids with
      | .error e => .error e
      | .ok is => .ok (i :: is)

/-- The position that an index means in a list of a given size. -/
def position? (size : Nat) (index : Int) : Option Nat :=
  if index < 0 then
    if index.natAbs ≤ size then some (size - index.natAbs) else none
  else if index.toNat < size then some index.toNat else none

/-- The instances that a target names. -/
def resolve (f : Fleet) : Target → Except FleetError Subset
  | .all => .ok f.instances
  | .id id => (f.lookup id).map fun i => [i]
  | .index index =>
    match (position? f.size index).bind fun n => f.instances[n]? with
    | some i => .ok [i]
    | none => .error (.indexOutOfRange index f.size)
  | .ids ids => f.lookupAll (firstMentions ids)
  | .subset s => f.lookupAll s.ids
  | .matching p => .ok (f.filter p)

/-- The running instance with an address. -/
def idOfAddress (f : Fleet) (address : String) : Except FleetError InstanceId :=
  match f.instances.find? fun i => i.state == .running && i.address == some address with
  | some i => .ok i.id
  | none => .error (.notFound s!"address {address}")

end Fleet

end CloudFleet
