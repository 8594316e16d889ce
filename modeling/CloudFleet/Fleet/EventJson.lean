import CloudFleet.Cloud.CallJson
import CloudFleet.Fleet.Event

/-!
# Events and log lines as values
-/

set_option autoImplicit false

namespace CloudFleet

open Json

/-- A log line as a value. -/
def LogLine.toJson (l : LogLine) : Json := .array [ofText l.level.name, ofText l.text]

namespace Plan

/-- Regions with numbers as a value. -/
def countsJson (counts : List (Region × Nat)) : Json :=
  .array (counts.map fun e => .array [ofText e.1.name, ofNat e.2])

/-- The regions with numbers that a value describes. -/
def countsOf (j : Json) : List (Region × Nat) := (items j).map fun e => (⟨itemText e 0⟩, itemNat e 1)

end Plan

namespace Event

/-- What an event says besides its kind. -/
def details : Event → List Json
  | refreshed regions instances => [ofNat regions, ofNat instances]
  | discovered id region => [ofText id, ofText region.name]
  | pollTick n | converged n => [ofNat n]
  | transitionRequested kind region ids dryRun =>
    [ofText kind.name, ofText region.name, ofTexts ids, .bool dryRun]
  | imageSelected region image => [ofText region.name, ofText image]
  | launchPlanned plan running toLaunch => [Plan.countsJson plan, ofNat running, ofNat toLaunch]
  | launchAborted => []
  | launched region count => [ofText region.name, ofNat count]
  | groupDeleted region | groupCreated region => [ofText region.name]
  | portOpened region port => [ofText region.name, ofWord16 port]
  | nodeListWritten path hosts => [ofText path, ofNat hosts]

/-- An event as a value. -/
def toJson (e : Event) : Json := .array (ofText e.kind :: e.details)

/-- The event that a value describes. -/
def ofJson (j : Json) : Event :=
  let region : Region := ⟨itemText j 1⟩
  match itemText j 0 with
  | "Refreshed" => refreshed (itemNat j 1) (itemNat j 2)
  | "Discovered" => discovered (itemText j 1) ⟨itemText j 2⟩
  | "PollTick" => pollTick (itemNat j 1)
  | "Converged" => converged (itemNat j 1)
  | "TransitionRequested" =>
    transitionRequested (.ofName (itemText j 1)) ⟨itemText j 2⟩ (texts (item j 3)) (itemFlag j 4)
  | "ImageSelected" => imageSelected region (itemText j 2)
  | "LaunchPlanned" => launchPlanned (Plan.countsOf (item j 1)) (itemNat j 2) (itemNat j 3)
  | "LaunchAborted" => launchAborted
  | "Launched" => launched region (itemNat j 2)
  | "SecurityGroupDeleted" => groupDeleted region
  | "SecurityGroupCreated" => groupCreated region
  | "IngressAuthorized" => portOpened region (.ofNat (itemNat j 2))
  | _ => nodeListWritten (itemText j 1) (itemNat j 2)

end Event

end CloudFleet
