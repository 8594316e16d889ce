import CloudFleet.Json.Fields

/-!
# Parameters of a benchmark
-/

set_option autoImplicit false

namespace CloudFleet

/-- The upper bound of the rounds drawn for a node that is made to stop early. -/
inductive RoundBound
  /-- It always stops early. -/
  | exclusive
  /-- It may run every round. -/
  | inclusive
deriving DecidableEq

namespace RoundBound

/-- The bound if none is named. -/
def default : RoundBound := exclusive

/-- The name of a bound. -/
def title : RoundBound → String
  | exclusive => "Exclusive"
  | inclusive => "Inclusive"

/-- The bound of a name. -/
def ofTitle? (s : String) : Option RoundBound := [exclusive, inclusive].find? fun b => b.title == s

/-- The bound that a value names. -/
def ofJson? (j : Json) : Option RoundBound := (Json.name? j).bind ofTitle?

/-- The bound as a value. -/
def toJson (b : RoundBound) : Json := .ofText b.title

end RoundBound

/-- What a benchmark is run with. Durations are in seconds. -/
structure BenchParams where
  numNodes : UInt64
  numRounds : UInt64
  /-- The duration of each phase of a round that has none of its own. -/
  duration : Float := 2.0
  proposeDuration : Option Float := none
  acknowledgeDuration : Option Float := none
  voteDuration : Option Float := none
  /-- The time between the launch and the start of the protocol. -/
  startupDelay : UInt64 := 60
  connectionLeadTime : UInt64 := 20
  /-- Whether a minority of the nodes stops early, and how early. -/
  adversary : Option RoundBound := none
  /-- Whether the payload is brought up to date first. -/
  sync : Bool := true

namespace BenchParams

/-- The duration of the first phase of a round. -/
def propose (p : BenchParams) : Float := p.proposeDuration.getD p.duration

/-- The duration of the second phase of a round. -/
def acknowledge (p : BenchParams) : Float := p.acknowledgeDuration.getD p.duration

/-- The duration of the third phase of a round. -/
def vote (p : BenchParams) : Float := p.voteDuration.getD p.duration

/-- The names of the fields, in order. -/
def fieldNames : List String :=
  ["num_nodes", "num_rounds", "duration", "propose_duration", "acknowledge_duration", "vote_duration",
   "startup_delay", "connection_lead_time", "adversary", "sync"]

open Json in
/-- The parameters that a value holds. -/
def ofJson? (j : Json) : Option BenchParams := do
  let f ← fields? fieldNames j
  pure {
    numNodes := ← f.required 0 word64?
    numRounds := ← f.required 1 word64?
    duration := ← f.required 2 float?
    proposeDuration := ← f.optional 3 float?
    acknowledgeDuration := ← f.optional 4 float?
    voteDuration := ← f.optional 5 float?
    startupDelay := ← f.required 6 word64?
    connectionLeadTime := ← f.required 7 word64?
    adversary := ← f.optional 8 RoundBound.ofJson?
    sync := ← f.required 9 bool? }

open Json in
/-- The parameters that a value holds, with `base` for what it leaves out. -/
def overlay (base : BenchParams) (j : Json) : Option BenchParams := do
  let f ← fields? fieldNames j
  pure {
    numNodes := ← f.orElse 0 base.numNodes word64?
    numRounds := ← f.orElse 1 base.numRounds word64?
    duration := ← f.orElse 2 base.duration float?
    proposeDuration := ← f.orElse 3 base.proposeDuration (nullable float?)
    acknowledgeDuration := ← f.orElse 4 base.acknowledgeDuration (nullable float?)
    voteDuration := ← f.orElse 5 base.voteDuration (nullable float?)
    startupDelay := ← f.orElse 6 base.startupDelay word64?
    connectionLeadTime := ← f.orElse 7 base.connectionLeadTime word64?
    adversary := ← f.orElse 8 base.adversary (nullable RoundBound.ofJson?)
    sync := ← f.orElse 9 base.sync bool? }

open Json in
/-- The parameters as a value. -/
def toJson (p : BenchParams) : Json :=
  record (fieldNames.zip [
    ofWord64 p.numNodes, ofWord64 p.numRounds, ofFloat p.duration, ofOption ofFloat p.proposeDuration,
    ofOption ofFloat p.acknowledgeDuration, ofOption ofFloat p.voteDuration, ofWord64 p.startupDelay,
    ofWord64 p.connectionLeadTime, ofOption RoundBound.toJson p.adversary, .bool p.sync])

end BenchParams

end CloudFleet
