import CloudFleet.Decimal.Shortest

/-!
# Decimal texts of floats

`Layout` holds the decisions of a number format. `record` is the format of stored data: positional for magnitudes
from `10 ^ -5` to below `10 ^ 16`, with an exponent elsewhere, and always recognisable as a fraction. `plain` is the
format of tables and command lines: positional throughout, whole numbers without a point. `Numeral.toFloat` turns a
numeral into the nearest float.
-/

set_option autoImplicit false

namespace CloudFleet.Decimal

/-- How floats are written. -/
structure Layout where
  /-- Which way a tie between two shortest decimals goes. -/
  tie : Tie
  /-- The exponents of the first digit that are written positionally; all if absent. -/
  positional : Option (Int × Int)
  /-- Whether a whole number ends in `.0`. -/
  pointZero : Bool
  /-- The text of what is no number. -/
  notNumber : String
  /-- The text of an infinite magnitude, negative or not. -/
  infinite : Bool → String

/-- Stored data: numbers that are not finite are null there. -/
def Layout.record : Layout := ⟨.even, some (-5, 15), true, "null", fun _ => "null"⟩

/-- Tables and command lines. -/
def Layout.plain : Layout := ⟨.up, none, false, "NaN", fun negative => if negative then "-inf" else "inf"⟩

/-- Digits with a point before the last `places` of them. -/
def pointed (digits : List Char) (places : Nat) : List Char :=
  let padded := List.replicate (places + 1 - digits.length) '0' ++ digits
  let whole := padded.length - places
  padded.take whole ++ (if places = 0 then [] else '.' :: padded.drop whole)

/-- A decimal without exponent. -/
def Layout.positionalText (layout : Layout) (d : Decimal) : List Char :=
  let digits := Nat.toDigits 10 d.digits
  if 0 ≤ d.exponent then
    digits ++ List.replicate d.exponent.toNat '0' ++ (if layout.pointZero then ['.', '0'] else [])
  else pointed digits (-d.exponent).toNat

/-- A decimal with one digit before the point, and an exponent with a sign. -/
def scientificText (d : Decimal) : List Char :=
  let digits := Nat.toDigits 10 d.digits
  let e := d.leading
  pointed digits (digits.length - 1) ++ 'e' :: (if e < 0 then '-' else '+') :: Nat.toDigits 10 e.natAbs

/-- The text of a positive decimal. -/
def Layout.magnitudeText (layout : Layout) (d : Decimal) : List Char :=
  match layout.positional with
  | none => layout.positionalText d
  | some (least, greatest) =>
    if least ≤ d.leading ∧ d.leading ≤ greatest then layout.positionalText d else scientificText d

/-- The text of a float. -/
def Layout.text (layout : Layout) (x : Float) : String :=
  let bits := x.toBits.toNat
  let negative := (1 <<< 63) ≤ bits
  let bits := bits % (1 <<< 63)
  if 0x7FF <<< 52 < bits then layout.notNumber
  else if bits = 0x7FF <<< 52 then layout.infinite negative
  else
    let magnitude :=
      if bits = 0 then layout.positionalText ⟨0, 0⟩
      else layout.magnitudeText (shortest layout.tie (.ofBits bits)).canonical
    .ofList (if negative then '-' :: magnitude else magnitude)

/-- A decimal numeral: a sign, digits, and a power of ten. -/
structure Numeral where
  negative : Bool
  digits : Nat
  exponent : Int

/-- The float nearest to a numeral, of two the one with the even significand; infinite beyond the greatest. -/
def Numeral.toFloat (n : Numeral) : Float :=
  let top : Int := n.exponent + width n.digits
  let magnitude : Float :=
    if n.digits = 0 ∨ top < -400 then 0.0
    else if 400 < top then 1.0 / 0.0
    else Float.ofScientific n.digits (n.exponent < 0) n.exponent.natAbs
  if n.negative then -magnitude else magnitude

end CloudFleet.Decimal
