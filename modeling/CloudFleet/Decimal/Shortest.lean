/-!
# Shortest decimals

A finite binary floating-point number is a multiple of a power of two. All reals closer to it than to its neighbours
read back as it, and the two midpoints do so if its significand is even. `shortest` is the decimal with the fewest
digits among those reals, the nearest one if there are several; of two at the same distance the `Tie` decides.
-/

set_option autoImplicit false

namespace CloudFleet

/-- A positive decimal: `digits * 10 ^ exponent`. -/
structure Decimal where
  digits : Nat
  exponent : Int
deriving DecidableEq

namespace Decimal

/-- A positive binary number: `significand * 2 ^ exponent`. -/
structure Binary where
  significand : Nat
  exponent : Int
  /-- Whether the number below is only half as far away as the one above. -/
  uneven : Bool

/-- The finite magnitude with the given bits of a 64-bit float, without the sign. -/
def Binary.ofBits (bits : Nat) : Binary :=
  let fraction : Nat := bits % (1 <<< 52)
  let power : Nat := (bits >>> 52) % (1 <<< 11)
  if power = 0 then ⟨fraction, -1074, false⟩
  else ⟨(1 <<< 52) + fraction, (power : Int) - 1075, fraction == 0 && decide (1 < power)⟩

/-- Which of two decimals at the same distance is taken. -/
inductive Tie
  /-- The one whose last digit is even. -/
  | even
  /-- The greater one. -/
  | up
deriving DecidableEq

/-- The number of decimal digits of `n`. -/
def width (n : Nat) : Nat := (Nat.toDigits 10 n).length

/-- The greatest `e` with `10 ^ e ≤ num / den`. -/
def magnitude (num den : Nat) : Int :=
  let guess : Int := (width num : Int) - width den
  let reached := if 0 ≤ guess then den * Nat.pow 10 guess.toNat ≤ num else den ≤ num * Nat.pow 10 (-guess).toNat
  if reached then guess else guess - 1

/-- `num / den` in units of `10 ^ e`, as a fraction. -/
def inUnits (num den : Nat) (e : Int) : Nat × Nat :=
  if 0 ≤ e then (num, den * Nat.pow 10 e.toNat) else (num * Nat.pow 10 (-e).toNat, den)

/-- The decimal on the grid of `10 ^ e` that reads back as `b`, if one of the two around it does. Bounds and value are
in quarters of the last binary place over `den`. -/
def onGrid (tie : Tie) (even : Bool) (low value high den : Nat) (e : Int) : Option Decimal :=
  let (v, d) := inUnits value den e
  let (l, _) := inUnits low den e
  let (h, _) := inUnits high den e
  let floor := v / d
  let fits (n : Nat) : Bool := if even then l ≤ n * d && n * d ≤ h else l < n * d && n * d < h
  let below := v - floor * d
  let above := (floor + 1) * d - v
  let upward := above < below || (above == below && (tie == .up || floor % 2 == 1))
  if fits floor && 0 < floor && !(fits (floor + 1) && upward) then some ⟨floor, e⟩
  else if fits (floor + 1) then some ⟨floor + 1, e⟩
  else none

/-- The first decimal found on the grids from `10 ^ e` down to `10 ^ (e - n)`. -/
def firstOnGrid (tie : Tie) (even : Bool) (low value high den : Nat) (e : Int) : Nat → Decimal
  | 0 => ⟨0, 0⟩
  | n + 1 =>
    match onGrid tie even low value high den e with
    | some d => d
    | none => firstOnGrid tie even low value high den (e - 1) n

/-- The decimal with the fewest digits that reads back as a positive number. -/
def shortest (tie : Tie) (b : Binary) : Decimal :=
  let scale := 1 <<< b.exponent.toNat
  let value := 4 * b.significand * scale
  let den := 4 <<< (-b.exponent).toNat
  let low := value - (if b.uneven then scale else 2 * scale)
  let high := value + 2 * scale
  firstOnGrid tie (b.significand % 2 == 0) low value high den (magnitude value den) 18

/-- `n` without the zeros that end it, and how many there were. -/
def dropZeros (n : Nat) : Nat × Nat :=
  if h : n = 0 ∨ n % 10 ≠ 0 then (n, 0) else
    let rest := dropZeros (n / 10)
    (rest.1, rest.2 + 1)
termination_by n
decreasing_by omega

/-- A decimal without zeros at the end of its digits. -/
def canonical (d : Decimal) : Decimal :=
  let (digits, zeros) := dropZeros d.digits
  ⟨digits, d.exponent + zeros⟩

/-- The exponent of the first digit of a decimal. -/
def leading (d : Decimal) : Int := d.exponent + (width d.digits : Int) - 1

end Decimal

end CloudFleet
