import CloudFleet.Decimal.Shortest

/-!
# Whole numbers

A binary floating-point number taken to the nearest signed word, a half away from zero. Numbers beyond the words become
the word that is nearest, and what is not a number becomes zero.
-/

set_option autoImplicit false

namespace CloudFleet
namespace Decimal

/-- The nearest natural number, the greater one if there are two. -/
def Binary.nearest (b : Binary) : Nat :=
  if 0 ≤ b.exponent then b.significand <<< b.exponent.toNat
  else (2 * b.significand + (1 <<< (-b.exponent).toNat)) >>> ((-b.exponent).toNat + 1)

/-- The bits of the infinite magnitude. Greater ones, without the sign, are not numbers. -/
def infinite : Nat := 0x7FF <<< 52

/-- The nearest word. -/
def toWord (x : Float) : Int64 :=
  let bits : Nat := x.toBits.toNat
  let negative := (1 <<< 63 : Nat) ≤ bits
  let bits := bits % (1 <<< 63)
  if infinite < bits then 0
  else
    let size : Nat := if bits = infinite then 1 <<< 63 else (Binary.ofBits bits).nearest
    if negative then .ofInt (-(min size (1 <<< 63) : Nat)) else .ofNat (min size ((1 <<< 63) - 1))

end Decimal
end CloudFleet
