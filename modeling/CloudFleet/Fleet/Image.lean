import CloudFleet.Cloud.Inquiry
import CloudFleet.Fleet.Registry
import CloudFleet.Text.Quoted

/-!
# Machine images

The image for a region is looked up once; afterwards the fleet remembers it.
-/

set_option autoImplicit false

namespace CloudFleet.Fleet

variable {ε : Type}

/-- Look up the latest matching image in each of the regions that has none yet. The answer lists the regions that were
asked, with what was found; it ends at the first region that fails. -/
def findImages (owner namePattern : String) :
    List Region → Program Fleet ε (Cloud.Answer (List (Region × Option String)))
  | [] => pure (.ok [])
  | region :: regions => do
    let fleet ← Program.memory
    if (fleet.image? region).isSome then findImages owner namePattern regions
    else
      match ← Cloud.call (.describeImages region owner namePattern) with
      | .error e => pure (.error e)
      | .ok images =>
        let found := (Cloud.latest? images).map ImageRecord.id
        .debug s!"image for {region.name}: {Text.quotedOption found}"
        match found with
        | some image => .remember (Change.imageFound region image)
        | none => pure ()
        match ← findImages owner namePattern regions with
        | .error e => pure (.error e)
        | .ok rest => pure (.ok ((region, found) :: rest))

end CloudFleet.Fleet
