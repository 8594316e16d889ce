import CloudFleet.World.Program

/-!
# Inquiries to the provider

Single calls on the control plane, and those that belong together: instances with their health, and the latest image
of a kind. A failed call is an answer here; what follows from it is for the caller to say.
-/

set_option autoImplicit false

namespace CloudFleet.Cloud

variable {τ ε : Type} [Memory τ]

/-- The answer to a call. -/
abbrev Answer (α : Type) := Except CloudError α

/-- Make a call. -/
def call (c : CloudCall) : Program τ ε (Answer c.Reply) := .request (.cloud c)

/-- Each instance with the last status reported for it; a status goes to the first instance of its identifier. -/
def withStatuses : List InstanceRecord → List StatusRecord → List (InstanceRecord × Option StatusRecord)
  | [], _ => []
  | r :: rs, statuses =>
    (r, (statuses.filter fun s => s.id == r.id).getLast?)
      :: withStatuses rs (statuses.filter fun s => s.id != r.id)

/-- The instances of a region with their health: those listed, or all if none is listed. -/
def describe (region : Region) (ids : List InstanceId) :
    Program τ ε (Answer (List (InstanceRecord × Option StatusRecord))) := do
  match ← call (.describeInstances region ids) with
  | .error e => pure (.error e)
  | .ok records =>
    match ← call (.describeStatuses region ids) with
    | .error e => pure (.error e)
    | .ok statuses => pure (.ok (withStatuses records statuses))

/-- Request a transition. A dry run that would have succeeded is a success. -/
def transition (kind : Transition) (region : Region) (ids : List InstanceId) (dryRun : Bool) :
    Program τ ε (Answer Unit) := do
  let answer ← call (.transition kind region ids dryRun)
  pure (CloudError.forgive dryRun () answer)

/-- Launch instances. A dry run that would have succeeded is a success without instances. -/
def launch (region : Region) (request : LaunchRequest) (dryRun : Bool) :
    Program τ ε (Answer (List InstanceRecord)) := do
  let answer ← call (.launch region request dryRun)
  pure (CloudError.forgive dryRun [] answer)

/-- The image with the latest date of creation, of several the last one listed. -/
def latest? (images : List ImageRecord) : Option ImageRecord :=
  images.foldl (fun best image => match best with
    | none => some image
    | some b => if image.created < b.created then some b else some image) none

end CloudFleet.Cloud
