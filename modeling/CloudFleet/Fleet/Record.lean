import CloudFleet.Instance.Basic
import CloudFleet.Json.Fields
import CloudFleet.Region.Plan

/-!
# Instances and plans as values
-/

set_option autoImplicit false

namespace CloudFleet

open Json

namespace Region

/-- The region that a value names. -/
def ofJson? (j : Json) : Option Region := (text? j).map Region.mk

/-- A region as a value. -/
def toJson (r : Region) : Json := ofText r.name

end Region

namespace InstanceState

/-- The state that a value names. -/
def ofJson? (j : Json) : Option InstanceState := (name? j).bind ofTitle?

/-- A state as a value. -/
def toJson (s : InstanceState) : Json := ofText s.title

end InstanceState

namespace Instance

/-- The names of the fields, in order. -/
def fieldNames : List String := ["id", "region", "dnsname", "state", "reachable", "status"]

/-- The instance that a value holds. -/
def ofJson? (j : Json) : Option Instance := do
  let f ← fields? fieldNames j
  pure {
    id := ← f.required 0 text?
    region := ← f.required 1 Region.ofJson?
    address := ← f.optional 2 text?
    state := ← f.required 3 InstanceState.ofJson?
    reachable := ← f.required 4 bool?
    status := ← f.optional 5 text? }

/-- The instance as a value. -/
def toJson (i : Instance) : Json :=
  record (fieldNames.zip [
    ofText i.id, i.region.toJson, ofOption ofText i.address, i.state.toJson, .bool i.reachable,
    ofOption ofText i.status])

end Instance

namespace Plan

/-- The names of the fields. -/
def fieldNames : List String := ["counts"]

/-- The plan that a value holds. -/
def ofJson? (j : Json) : Option Plan := do
  let f ← fields? fieldNames j
  pure ⟨← f.required 0 (list? (pair? Region.ofJson? (natBelow? wordLimit)))⟩

/-- The plan as a value. -/
def toJson (p : Plan) : Json :=
  record (fieldNames.zip [.array (p.counts.map fun entry => .array [entry.1.toJson, ofNat entry.2])])

end Plan

end CloudFleet
