import CloudFleet.Bench.Record
import CloudFleet.Json.Reader
import CloudFleet.Time.Reading

/-!
# Run records as values
-/

set_option autoImplicit false

namespace CloudFleet

open Json

namespace Instant

/-- An instant as a value: a text in universal time. -/
def toJson (t : Instant) : Json := ofText (t.isoText "Z")

/-- The instant that a value holds. -/
def ofJson? (j : Json) : Option Instant := (text? j).bind read?

end Instant

namespace RunRecord

/-- The names of the fields, in order. -/
def fieldNames : List String :=
  ["num_nodes", "num_rounds", "propose_duration", "acknowledge_duration", "vote_duration", "start", "end",
   "rounds_per_host", "results", "verdict", "data_dir"]

/-- The record that a value holds. -/
def ofJson? (j : Json) : Option RunRecord := do
  let f ← fields? fieldNames j
  pure {
    numNodes := ← f.required 0 word64?
    numRounds := ← f.required 1 word64?
    proposeDuration := ← f.required 2 float?
    acknowledgeDuration := ← f.required 3 float?
    voteDuration := ← f.required 4 float?
    start := ← f.required 5 Instant.ofJson?
    finish := ← f.required 6 Instant.ofJson?
    roundsPerHost := ← f.required 7 (list? (pair? text? word64?))
    results := ← f.required 8 (list? (pair? text? HostResult.ofJson?))
    verdict := ← f.optional 9 Verdict.ofJson?
    dataDir := ← f.optional 10 text? }

/-- The record as a value. -/
def toJson (r : RunRecord) : Json :=
  record (fieldNames.zip [
    ofWord64 r.numNodes, ofWord64 r.numRounds, ofFloat r.proposeDuration, ofFloat r.acknowledgeDuration,
    ofFloat r.voteDuration, r.start.toJson, r.finish.toJson,
    .array (r.roundsPerHost.map fun entry => .array [ofText entry.1, ofWord64 entry.2]),
    .array (r.results.map fun entry => .array [ofText entry.1, entry.2.toJson]),
    ofOption Verdict.toJson r.verdict, ofOption ofText r.dataDir])

/-- The record that a text holds. -/
def read? (text : String) : Option RunRecord := (Json.read? text).bind ofJson?

end RunRecord

end CloudFleet
