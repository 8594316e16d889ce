/-!
# A source of random words

A counter that advances by a fixed odd step, with its bits mixed: enough for runs that must be repeated.
-/

set_option autoImplicit false

namespace CloudFleet.Random

/-- The bits of a counter, mixed. -/
def mix (state : UInt64) : UInt64 :=
  let z := (state ^^^ (state >>> 30)) * 0xBF58476D1CE4E5B9
  let z := (z ^^^ (z >>> 27)) * 0x94D049BB133111EB
  z ^^^ (z >>> 31)

/-- So many words of the sequence that starts behind a counter, and the counter after them. -/
def sequence (seed : UInt64) : Nat → List UInt64 × UInt64
  | 0 => ([], seed)
  | n + 1 =>
    let next := seed + 0x9E3779B97F4A7C15
    let rest := sequence next n
    (mix next :: rest.1, rest.2)

end CloudFleet.Random
