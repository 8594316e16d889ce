import CloudFleet.Bench.Params
import CloudFleet.Time.Instant

/-!
# Records of runs

What a run was and how it ended, for the file kept with its logs (`RunRecord.toJson`) and for the table of all runs
(`RunRecord.csvLine`).
-/

set_option autoImplicit false

namespace CloudFleet

/-- What a host reported. -/
inductive HostResult
  | ok
  /-- It reported success, but was assigned fewer rounds. -/
  | evil
  | failed
  /-- There was no result, or none that is known; with what there was. -/
  | missing (found : String)
deriving DecidableEq, Inhabited

namespace HostResult

/-- A result in a line. -/
def text : HostResult → String
  | ok => "OK"
  | evil => "EVIL"
  | failed => "FAILED"
  | missing found => s!"MISSING({found})"

/-- Whether the host did not succeed. -/
def isFailure : HostResult → Bool
  | failed | missing _ => true
  | ok | evil => false

/-- A result as a value. -/
def toJson : HostResult → Json
  | ok => .ofText "Ok"
  | evil => .ofText "Evil"
  | failed => .ofText "Failed"
  | missing found => .record [("Missing", .ofText found)]

/-- The result that a value holds. -/
def ofJson? (j : Json) : Option HostResult :=
  match j with
  | .object [(key, value)] =>
    if Json.unquote? key = some "Missing".toList then (Json.text? value).map missing else named j
  | _ => named j
where
  /-- A result without content, by its name. -/
  named (j : Json) : Option HostResult := do
    match ← Json.name? j with
    | "Ok" => pure ok
    | "Evil" => pure evil
    | "Failed" => pure failed
    | _ => none

end HostResult

/-- The judgement on a run. -/
inductive Verdict
  | ok
  | failed
deriving DecidableEq, Inhabited

namespace Verdict

/-- A verdict in a line. -/
def text : Verdict → String
  | ok => "OK"
  | failed => "FAILED"

/-- A verdict as a value. -/
def toJson : Verdict → Json
  | ok => .ofText "Ok"
  | failed => .ofText "Failed"

/-- The verdict that a value holds. -/
def ofJson? (j : Json) : Option Verdict := do
  match ← Json.name? j with
  | "Ok" => pure ok
  | "Failed" => pure failed
  | _ => none

end Verdict

/-- All that is needed to make sense of what a run left behind. -/
structure RunRecord where
  numNodes : UInt64
  numRounds : UInt64
  proposeDuration : Float
  acknowledgeDuration : Float
  voteDuration : Float
  start : Instant
  finish : Instant
  /-- The rounds assigned to each host. -/
  roundsPerHost : List (String × UInt64)
  /-- What each host reported. -/
  results : List (String × HostResult)
  verdict : Option Verdict
  /-- Where the logs of the run are. -/
  dataDir : Option String

namespace RunRecord

/-- The rounds assigned to a host. -/
def roundsOf (r : RunRecord) (host : String) : Option UInt64 := r.roundsPerHost.lookup host

/-- The results in one field: hosts and results in turn. -/
def resultsField (results : List (String × HostResult)) : String :=
  ",".intercalate (results.map fun entry => s!"{entry.1},{entry.2.text}")

/-- The record as a line of the table of runs, without the end of the line. -/
def csvLine (r : RunRecord) : String :=
  let float := Decimal.Layout.plain.text
  let verdict := (r.verdict.map Verdict.text).getD ""
  let numbers := [toString r.numNodes, toString r.numRounds, float r.proposeDuration, float r.acknowledgeDuration,
    float r.voteDuration, r.start.stamp, r.finish.stamp]
  ";".intercalate (numbers ++ ["\"" ++ resultsField r.results ++ "\"", verdict])

end RunRecord

end CloudFleet
