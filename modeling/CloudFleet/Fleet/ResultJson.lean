import CloudFleet.Fleet.Create
import CloudFleet.Fleet.EventJson
import CloudFleet.Fleet.Record
import CloudFleet.Fleet.Status

/-!
# What a fleet answers as values
-/

set_option autoImplicit false

namespace CloudFleet

open Json

/-- An error as a value. -/
def FleetError.toJson (e : FleetError) : Json :=
  match e with
  | unknownState _ => failure "UnknownState" e.message
  | notFound _ => failure "NotFound" e.message
  | indexOutOfRange .. => failure "IndexOutOfRange" e.message
  | invalidState .. => failure "InvalidState" e.message
  | imageNotFound _ => failure "ImageNotFound" e.message
  | provider _ => failure "Provider" e.message
  | timeout _ => failure "Timeout" e.message
  | system _ => foreign "Io"

/-- An instance as one text. -/
def Instance.brief (i : Instance) : Json := ofText s!"{i.id} {i.region.name} {i.state.name} {i.reachable}"

namespace Subset

/-- Instances as a value. -/
def toJson (s : Subset) : Json := .array (s.map Instance.brief)

/-- Identifiers by region as a value. -/
def groupsJson (groups : List (Region × List InstanceId)) : Json :=
  .array (groups.map fun g => .array [ofText g.1.name, ofTexts g.2])

/-- The text and the groups of instances as a value. -/
def outline (s : Subset) : Json := record [("text", ofText s.text), ("by_region", groupsJson s.byRegion)]

/-- All about instances as a value, with whether each of some identifiers is among them. -/
def profile (s : Subset) (ids : List InstanceId) : Json :=
  record [("subset", s.toJson), ("text", ofText s.text), ("ids", ofTexts s.ids), ("len", ofNat s.length),
    ("empty", .bool s.isEmpty), ("contains", .array (ids.map fun id => .bool (s.ids.contains id))),
    ("by_region", groupsJson s.byRegion)]

end Subset

/-- How creating instances ended, as a value. -/
def Launch.toJson : Launch → Json
  | aborted => ofText "aborted"
  | launched s => record [("launched", Subset.toJson s)]

/-- A report on a fleet as a value. -/
def StatusReport.toJson (r : StatusReport) : Json :=
  record [("text", ofText r.text), ("running", ofNat r.running), ("per_region", Plan.countsJson r.runningPerRegion),
    ("instances", ofNat r.instances.length)]

/-- All about a fleet as a value. -/
def Fleet.profile (f : Fleet) : Json :=
  let ids (state : InstanceState) : Json := ofTexts (Subset.ids (f.inState state))
  record [("len", ofNat f.size), ("empty", .bool (f.size == 0)), ("running", ids .running), ("pending", ids .pending),
    ("stopping", ids .stopping), ("stopped", ids .stopped), ("terminated", ids .terminated),
    ("by_region", Subset.groupsJson (f.byRegion.map fun g => (g.1, Subset.ids g.2))),
    ("instances", ofTexts (f.instances.map Instance.text))]

/-- Whether an instance has the properties that a value gives. -/
def Instance.meets (j : Json) (i : Instance) : Bool :=
  let plain (key value : String) : Bool := (textAt? j key).all (· == value)
  let nullable (key : String) (value : Option String) : Bool := (givenAt j key).all (· == value)
  plain "state" i.state.name && plain "region" i.region.name && (flagAt? j "reachable").all (· == i.reachable)
    && nullable "dnsname" i.address && nullable "status" i.status && plain "id" i.id

/-- The target that a value describes; subsets that were saved go by their names. -/
def Target.ofJson (saved : List (String × Subset)) (j : Json) : Target :=
  if has j "id" then id (textAt j "id")
  else if has j "index" then index ((int? (get j "index")).getD 0)
  else if has j "ids" then ids (textsAt j "ids")
  else if has j "saved" then subset ((saved.lookup (textAt j "saved")).getD [])
  else if has j "instances" then subset ((itemsAt j "instances").filterMap Instance.ofJson?)
  else if has j "matching" then matching (Instance.meets (get j "matching"))
  else all

end CloudFleet
