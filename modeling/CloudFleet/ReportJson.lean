import CloudFleet.Json.Access
import CloudFleet.Report

/-!
# Reports as values

Where a link holds words that are not ours, its kind stands for it.
-/

set_option autoImplicit false

namespace CloudFleet

open Json

/-- A link as a value. -/
def Link.toJson : Link → Json
  | text s => ofText s
  | system _ => ofText "<io>"
  | unreadable => ofText "<json>"

/-- A report link by link as a value. -/
def Report.chainJson (r : Report) : Json := .array (r.chain.map Link.toJson)

/-- A report as a value. -/
def Report.toJson (r : Report) : Json := record [("error", ofText "Report"), ("chain", r.chainJson)]

end CloudFleet
