import CloudFleet.Cloud.Inquiry
import CloudFleet.Json.Access

/-!
# Calls and their answers as values
-/

set_option autoImplicit false

namespace CloudFleet

open Json

/-- The transition of a name. -/
def Transition.ofName (s : String) : Transition :=
  match s with
  | "start" => start
  | "stop" => stop
  | "reboot" => reboot
  | _ => terminate

namespace CloudCall

/-- The name of the operation that a call invokes. -/
def operation : CloudCall → String
  | describeInstances .. => "describe_instances"
  | describeStatuses .. => "describe_instance_status"
  | transition .start .. => "start_instances"
  | transition .stop .. => "stop_instances"
  | transition .reboot .. => "reboot_instances"
  | transition .terminate .. => "terminate_instances"
  | launch .. => "run_instances"
  | describeImages .. => "describe_images"
  | listGroups _ => "security_group_names"
  | deleteGroup .. => "delete_security_group"
  | createGroup .. => "create_security_group"
  | openPort .. => "authorize_ingress"

/-- What a call says besides its operation and its region. -/
def details : CloudCall → Json
  | describeInstances _ ids | describeStatuses _ ids => record [("ids", ofTexts ids)]
  | transition _ _ ids dryRun => record [("ids", ofTexts ids), ("dry_run", .bool dryRun)]
  | launch _ r dryRun =>
    record [("image_id", ofText r.image), ("instance_type", ofText r.instanceType), ("count", ofNat r.count),
      ("user_data", ofText r.userData), ("security_group", ofText r.securityGroup), ("key_name", ofText r.keyName),
      ("shutdown_behavior", ofText r.shutdownBehavior), ("dry_run", .bool dryRun)]
  | describeImages _ owner pattern => record [("owner", ofText owner), ("name_pattern", ofText pattern)]
  | listGroups _ => record []
  | deleteGroup _ name => record [("name", ofText name)]
  | createGroup _ name description => record [("name", ofText name), ("description", ofText description)]
  | openPort _ name port => record [("name", ofText name), ("port", ofWord16 port)]

/-- A call as a value. -/
def toJson (c : CloudCall) : Json := .array [ofText c.operation, ofText c.region.name, c.details]

/-- The call of an operation that a value describes. -/
def ofJson (operation : String) (j : Json) : CloudCall :=
  let region : Region := ⟨textAt j "region"⟩
  let ids := textsAt j "ids"
  let dryRun := flagAt j "dry_run"
  match operation with
  | "describe_instances" => describeInstances region ids
  | "describe_instance_status" => describeStatuses region ids
  | "start_instances" => transition .start region ids dryRun
  | "stop_instances" => transition .stop region ids dryRun
  | "reboot_instances" => transition .reboot region ids dryRun
  | "terminate_instances" => transition .terminate region ids dryRun
  | "run_instances" =>
    launch region ⟨textAt j "image_id", textAt j "instance_type", natAt j "count" 0, textAt j "user_data",
      textAt j "security_group", textAt j "key_name", textAt j "shutdown_behavior"⟩ dryRun
  | "describe_images" => describeImages region (textAt j "owner") (textAt j "pattern")
  | "security_group_names" => listGroups region
  | "delete_security_group" => deleteGroup region (textAt j "name")
  | "create_security_group" => createGroup region (textAt j "name") (textAt j "description")
  | _ => openPort region (textAt j "name") (.ofNat (natAt j "port" 0))

end CloudCall

namespace CloudError

/-- The kind of an error. -/
def kind : CloudError → String
  | dryRun => "DryRun"
  | unknownRegion _ => "UnknownRegion"
  | api .. => "Api"

/-- An error as a value. -/
def toJson (e : CloudError) : Json := failure e.kind e.message

/-- The error that a value describes. -/
def ofJson (j : Json) : CloudError :=
  match itemText j 0 with
  | "DryRun" => dryRun
  | "UnknownRegion" => unknownRegion ⟨itemText j 1⟩
  | _ => api ⟨itemText j 1⟩ (itemText j 2) (itemText j 3)

end CloudError

/-- A record of an instance as a value. -/
def InstanceRecord.toJson (r : InstanceRecord) : Json :=
  record [("id", ofText r.id), ("dnsname", ofText? r.address), ("state", ofText r.state)]

/-- The record of an instance that a value describes. -/
def InstanceRecord.ofJson (j : Json) : InstanceRecord := ⟨textAt j "id", textAt? j "dnsname", textAt j "state"⟩

/-- A health check as a value. -/
def StatusRecord.toJson (s : StatusRecord) : Json := .array [ofText s.id, ofText? s.status]

namespace Cloud

/-- An answer as a value. -/
def answerJson {α : Type} (value : α → Json) : Answer α → Json := ofExcept CloudError.toJson value

/-- Instances with their health as a value. -/
def describedJson (found : List (InstanceRecord × Option StatusRecord)) : Json :=
  .array (found.map fun e => .array [e.1.toJson, ofOption StatusRecord.toJson e.2])

/-- Images by region as a value. -/
def imagesJson (found : List (Region × Option String)) : Json :=
  .array (found.map fun e => .array [ofText e.1.name, ofText? e.2])

/-- The form of the answer to a call. -/
def replyJson : (c : CloudCall) → c.Reply → Json
  | .describeInstances .., records | .launch .., records => .array (records.map InstanceRecord.toJson)
  | .describeStatuses .., statuses => .array (statuses.map StatusRecord.toJson)
  | .describeImages .., images => .array (images.map fun i => ofTexts [i.id, i.created])
  | .listGroups _, names => ofTexts names
  | .transition .., _ | .deleteGroup .., _ | .createGroup .., _ | .openPort .., _ => .null

end Cloud

end CloudFleet
