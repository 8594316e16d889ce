import CloudFleet.Bench.Params
import CloudFleet.Decimal.Whole
import CloudFleet.Time.Instant

/-!
# Schedules

A run starts a delay after now and is expected to end when all its rounds have passed. Both instants are whole
seconds: what is left of a second is dropped, towards the past.
-/

set_option autoImplicit false

namespace CloudFleet

/-- When a run starts and is expected to end. -/
structure Schedule where
  start : Instant
  finish : Instant
deriving DecidableEq

namespace Schedule

/-- The nanoseconds in a millisecond. -/
def nanosPerMilli : Int := 1000000

/-- The greatest number of seconds, in size, by which an instant can be moved. -/
def maxSeconds : Int := 9223372036854775

/-- The schedule of a run that starts `delay` seconds after now and lasts `total` milliseconds, unless an instant is
beyond what a clock can show. -/
def plan? (now : Instant) (delay total : Int) : Option Schedule := do
  if -maxSeconds ≤ delay ∧ delay ≤ maxSeconds then
    let start ← now.truncate.later? (delay * nanosPerSecond)
    let finish ← start.later? (total * nanosPerMilli)
    pure ⟨start, finish.truncate⟩
  else none

/-- The length of all rounds in milliseconds, rounded to the nearest, a half away from zero. -/
def totalMillis (p : BenchParams) : Int64 :=
  let round := p.propose + p.acknowledge + p.vote
  Decimal.toWord (p.numRounds.toFloat * round * 1000.0)

/-- The schedule of a run. The delay counts as a signed word. -/
def new? (now : Instant) (p : BenchParams) : Option Schedule :=
  plan? now p.startupDelay.toInt64.toInt (totalMillis p).toInt

/-- The nanoseconds from start to end. -/
def total (s : Schedule) : Int := s.finish.since s.start

/-- The time until the end, zero once it has passed. -/
def remaining (s : Schedule) (now : Instant) : Duration := ⟨(s.finish.since now).toNat⟩

end Schedule

end CloudFleet
