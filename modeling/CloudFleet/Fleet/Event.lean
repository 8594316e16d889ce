import CloudFleet.Cloud.Call
import CloudFleet.Log.Line
import CloudFleet.Region.Plan
import CloudFleet.Text.Blank

/-!
# Events of a fleet

What a fleet announces while it works, and how each event reads in a log (`Event.lines?`).
-/

set_option autoImplicit false

namespace CloudFleet

/-- Something worth telling that happened to the fleet. -/
inductive Event
  /-- So many instances were described in so many regions. -/
  | refreshed (regions instances : Nat)
  /-- An instance was seen for the first time. -/
  | discovered (id : InstanceId) (region : Region)
  /-- A poll ended, the given one since waiting began. -/
  | pollTick (iteration : Nat)
  /-- Waiting ended after so many polls. -/
  | converged (iterations : Nat)
  | transitionRequested (kind : Transition) (region : Region) (ids : List InstanceId) (dryRun : Bool)
  | imageSelected (region : Region) (image : String)
  | launchPlanned (plan : List (Region × Nat)) (running toLaunch : Nat)
  | launchAborted
  | launched (region : Region) (count : Nat)
  | groupDeleted (region : Region)
  | groupCreated (region : Region)
  | portOpened (region : Region) (port : UInt16)
  | nodeListWritten (path : String) (hosts : Nat)
deriving DecidableEq

/-- A label and a number in two columns. -/
def tableRow (label : String) (n : Nat) : String :=
  "    " ++ Text.padRight 41 label ++ " " ++ Text.padLeft 3 (toString n)

namespace Event

/-- The name of an event's kind. -/
def kind : Event → String
  | refreshed .. => "Refreshed"
  | discovered .. => "Discovered"
  | pollTick .. => "PollTick"
  | converged .. => "Converged"
  | transitionRequested .. => "TransitionRequested"
  | imageSelected .. => "ImageSelected"
  | launchPlanned .. => "LaunchPlanned"
  | launchAborted => "LaunchAborted"
  | launched .. => "Launched"
  | groupDeleted .. => "SecurityGroupDeleted"
  | groupCreated .. => "SecurityGroupCreated"
  | portOpened .. => "IngressAuthorized"
  | nodeListWritten .. => "NodeListWritten"

/-- The log lines of an event; none if the number of instances after a launch is no machine word. -/
def lines? : Event → Option (List LogLine)
  | refreshed regions instances =>
    some [⟨.debug, s!"refreshed {instances} instance(s) in {regions} region(s)"⟩]
  | discovered id region => some [⟨.info, s!"discovered instance {id} in {region.name}"⟩]
  | pollTick n => some [⟨.info, s!"waiting... ({n})"⟩]
  | converged n => some [⟨.info, s!"done after {n} poll(s)"⟩]
  | transitionRequested kind region ids dryRun =>
    let mark := if dryRun then " (dry run)" else ""
    some [⟨.info, s!"{region.label}: {kind.name} {ids.length} instance(s){mark}"⟩]
  | imageSelected region image => some [⟨.info, s!"{region.label}: using image {image}"⟩]
  | launchPlanned plan running toLaunch =>
    (wordSum? [running, toLaunch]).map fun after =>
      ⟨.info, "launch plan:"⟩ :: plan.map (fun entry => ⟨.info, tableRow entry.1.label entry.2⟩) ++
        [⟨.info, "currently running instances:   " ++ Text.padLeft 3 (toString running)⟩,
         ⟨.info, "instances to launch:           " ++ Text.padLeft 3 (toString toLaunch)⟩,
         ⟨.info, "instances after launch:        " ++ Text.padLeft 3 (toString after)⟩]
  | launchAborted => some [⟨.warn, "launch aborted"⟩]
  | launched region count => some [⟨.info, s!"{region.label}: launched {count} instance(s)"⟩]
  | groupDeleted region => some [⟨.info, s!"{region.label}: deleted security group"⟩]
  | groupCreated region => some [⟨.info, s!"{region.label}: created security group"⟩]
  | portOpened region port => some [⟨.info, s!"{region.label}: opened tcp port {port}"⟩]
  | nodeListWritten path hosts => some [⟨.info, s!"updated {path} with {hosts} running instance(s)"⟩]

end Event

end CloudFleet
