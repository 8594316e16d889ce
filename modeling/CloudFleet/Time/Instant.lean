import CloudFleet.Time.Civil
import CloudFleet.Time.Duration

/-!
# Instants

An instant is a second since 1970-01-01T00:00:00Z and a number of nanoseconds within it. A second that is followed by
a leap second has up to two thousand million of them, and shows as second 60 from the first thousand million on.
`Instant.add` and `Instant.since` count such a second as the clock does, and `Instant.later?` stays within the years
that a clock can show.
-/

set_option autoImplicit false

namespace CloudFleet

/-- Nanoseconds in a second. -/
def nanosPerSecond : Nat := 1000000000

/-- A point in time, in universal time. -/
structure Instant where
  /-- Whole seconds since 1970-01-01T00:00:00Z. -/
  seconds : Int
  /-- Nanoseconds in that second; those of a leap second continue the second before it. -/
  nanos : Nat
deriving DecidableEq, Inhabited

namespace Instant

/-- The instant so many nanoseconds after 1970-01-01T00:00:00Z, where no second is a leap second. -/
def ofNanos (n : Int) : Instant := ⟨n / nanosPerSecond, (n % nanosPerSecond).toNat⟩

/-- The nanoseconds from 1970-01-01T00:00:00Z, leap seconds before the instant not counted. -/
def toNanos (t : Instant) : Int := t.seconds * nanosPerSecond + t.nanos

/-- Whether the instant is inside a leap second. -/
def inLeapSecond (t : Instant) : Bool := nanosPerSecond ≤ t.nanos

/-- The instant `n` nanoseconds later (earlier if `n` is negative). A leap second has length only for moves that
start in it: one that stays in it moves within it, one that leaves it forward loses what was left of it. -/
def add (t : Instant) (n : Int) : Instant :=
  if t.inLeapSecond then
    let left : Int := 2 * nanosPerSecond - t.nanos
    if left ≤ n then ofNanos ((t.seconds + 1) * nanosPerSecond + (n - left))
    else if n < -(t.nanos : Int) then ofNanos (t.seconds * nanosPerSecond + (n + t.nanos))
    else ⟨t.seconds, (t.nanos + n).toNat⟩
  else ofNanos (t.toNanos + n)

/-- The seconds in a day. -/
def daySeconds : Int := 86400

/-- The nanoseconds from `b` to `a`. A leap second counts if it lies on the way from the earlier to the later time of
day and one of the two is inside it. -/
def since (a b : Instant) : Int :=
  let clockA := a.seconds % daySeconds
  let clockB := b.seconds % daySeconds
  let leap : Int :=
    if clockB < clockA then (if b.inLeapSecond then 1 else 0)
    else if clockA < clockB then (if a.inLeapSecond then -1 else 0)
    else 0
  (a.seconds - b.seconds + leap) * nanosPerSecond + ((a.nanos : Int) - b.nanos)

/-- The instant without the part of its second that has passed. -/
def truncate (t : Instant) : Instant :=
  let past := t.nanos % nanosPerSecond
  if past = 0 then t else t.add (-past)

/-- The first second of the first year that a clock can show. -/
def firstSecond : Int := (Date.mk (-262143) 1 1).days * daySeconds

/-- The second after the last year that a clock can show. -/
def endSecond : Int := (Date.mk 262143 1 1).days * daySeconds

/-- Whether a clock can show the instant. -/
def inRange (t : Instant) : Bool := firstSecond ≤ t.seconds && t.seconds < endSecond

/-- The instant `n` nanoseconds later, if a clock can show it. -/
def later? (t : Instant) (n : Int) : Option Instant :=
  let u := t.add n
  if u.inRange then some u else none

/-- The date of an instant. -/
def date (t : Instant) : Date := .ofDays (t.seconds / daySeconds)

/-- Hour, minute and second of an instant; inside a leap second the second is 60. -/
def clock (t : Instant) : Nat × Nat × Nat :=
  let s := (t.seconds % daySeconds).toNat
  (s / 3600, s / 60 % 60, s % 60 + t.nanos / nanosPerSecond)

/-- The time of day with `sep` between hour, minute and second. -/
def clockText (sep : String) (t : Instant) : String :=
  let (h, m, s) := t.clock
  zeroPadded 2 h ++ sep ++ zeroPadded 2 m ++ sep ++ zeroPadded 2 s

/-- The part of a second behind a point, in 0, 3, 6 or 9 digits: as few as are exact. -/
def fractionText (t : Instant) : String :=
  let n := t.nanos % nanosPerSecond
  if n = 0 then ""
  else if n % 1000000 = 0 then "." ++ zeroPadded 3 (n / 1000000)
  else if n % 1000 = 0 then "." ++ zeroPadded 6 (n / 1000)
  else "." ++ zeroPadded 9 n

/-- Date and time of day to the second, for tables and command lines. -/
def stamp (t : Instant) : String := t.date.text ++ " " ++ t.clockText ":"

/-- Date and time of day to the second, for names of directories. -/
def dirName (t : Instant) : String := t.date.text ++ "_" ++ t.clockText "-"

/-- Date and time with as much of the second as is needed, and a mark for universal time behind. -/
def isoText (zone : String) (t : Instant) : String :=
  t.date.text ++ "T" ++ t.clockText ":" ++ t.fractionText ++ zone

/-- An instant as people read it. -/
def text (t : Instant) : String :=
  t.date.text ++ " " ++ t.clockText ":" ++ t.fractionText ++ " UTC"

end Instant

end CloudFleet
