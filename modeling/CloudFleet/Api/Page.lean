import CloudFleet.Api.Markup
import CloudFleet.Cloud.Call

/-!
# Pages

What the provider's answers hold: records of instances, health checks, images and groups, and the token of the page
that follows. What has no name of its own is left out.
-/

set_option autoImplicit false

namespace CloudFleet.Page

/-- The record of an instance. -/
def instance? (m : Markup) : Option InstanceRecord :=
  (m.field? "instanceId").map fun id =>
    ⟨id, m.field? "dnsName", ((m.part? "instanceState").bind (·.field? "name")).getD ""⟩

/-- The health check of an instance. -/
def status? (m : Markup) : Option StatusRecord :=
  (m.field? "instanceId").map fun id => ⟨id, (m.part? "instanceStatus").bind (·.field? "status")⟩

/-- The record of an image. -/
def image? (m : Markup) : Option ImageRecord :=
  (m.field? "imageId").map fun id => ⟨id, (m.field? "creationDate").getD ""⟩

/-- The instances of a reservation. -/
def launched (m : Markup) : List InstanceRecord := (m.entries "instancesSet").filterMap instance?

/-- The instances of all reservations. -/
def instances (m : Markup) : List InstanceRecord := (m.entries "reservationSet").flatMap launched

/-- The health checks. -/
def statuses (m : Markup) : List StatusRecord := (m.entries "instanceStatusSet").filterMap status?

/-- The images. -/
def images (m : Markup) : List ImageRecord := (m.entries "imagesSet").filterMap image?

/-- The names of the groups. -/
def groups (m : Markup) : List String := (m.entries "securityGroupInfo").filterMap (·.field? "groupName")

/-- The token of the page that follows, if one follows. -/
def nextToken? (m : Markup) : Option String := (m.field? "nextToken").filter fun t => !t.isEmpty

end CloudFleet.Page
