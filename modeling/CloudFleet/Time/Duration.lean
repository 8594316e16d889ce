/-!
# Durations

A duration is a number of nanoseconds. Its `text` takes the largest of the units `s`, `ms`, `µs`, `ns` in which it
is at least one, with a decimal fraction without trailing zeros.
-/

set_option autoImplicit false

namespace CloudFleet

/-- A span of time that is not negative. -/
structure Duration where
  /-- Its length in nanoseconds. -/
  nanos : Nat
deriving DecidableEq, Inhabited

namespace Duration

/-- No time at all. -/
def zero : Duration := ⟨0⟩

/-- So many seconds. -/
def ofSeconds (n : Nat) : Duration := ⟨n * 1000000000⟩

/-- So many milliseconds. -/
def ofMillis (n : Nat) : Duration := ⟨n * 1000000⟩

/-- The whole milliseconds in a duration. -/
def millis (d : Duration) : Nat := d.nanos / 1000000

/-- The time from `b` to `a`, zero if `b` is later. -/
def sub (a b : Duration) : Duration := ⟨a.nanos - b.nanos⟩

/-- The longer of two durations. -/
def max (a b : Duration) : Duration := ⟨Nat.max a.nanos b.nanos⟩

instance : LE Duration := ⟨fun a b => a.nanos ≤ b.nanos⟩

instance (a b : Duration) : Decidable (a ≤ b) := inferInstanceAs (Decidable (a.nanos ≤ b.nanos))

instance : LT Duration := ⟨fun a b => a.nanos < b.nanos⟩

instance (a b : Duration) : Decidable (a < b) := inferInstanceAs (Decidable (a.nanos < b.nanos))

/-- The digits of `n < 10 ^ places` behind a point, without the zeros that end them; nothing if `n` is zero. -/
def fraction (n places : Nat) : String :=
  let digits := (toString n).toList
  let padded := List.replicate (places - digits.length) '0' ++ digits
  match (padded.reverse.dropWhile (· == '0')).reverse with
  | [] => ""
  | ds => "." ++ .ofList ds

/-- The quotient of `n` by `10 ^ places`, in decimal. -/
def scaled (n places : Nat) : String := toString (n / Nat.pow 10 places) ++ fraction (n % Nat.pow 10 places) places

/-- A duration in its largest unit. -/
def text (d : Duration) : String :=
  if 1000000000 ≤ d.nanos then scaled d.nanos 9 ++ "s"
  else if 1000000 ≤ d.nanos then scaled d.nanos 6 ++ "ms"
  else if 1000 ≤ d.nanos then scaled d.nanos 3 ++ "µs"
  else toString d.nanos ++ "ns"

end Duration

end CloudFleet
