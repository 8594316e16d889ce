import CloudFleet.Json.Fields

/-!
# Reading numbers

Numbers as people type them: `unsigned?` reads a whole number below a limit, `real?` a number with or without a point
and an exponent, of which it takes the nearest float.
-/

set_option autoImplicit false

namespace CloudFleet.Decimal

/-- The characters behind a plus sign, if there is one. -/
def withoutPlus : List Char → List Char
  | '+' :: cs => cs
  | cs => cs

/-- A whole number below a limit: digits, which a plus sign may lead. -/
def unsigned? (limit : Nat) (s : String) : Option Nat :=
  let digits := withoutPlus s.toList
  if !digits.isEmpty && digits.all Char.isDigit && decide (Text.digitsValue digits < limit) then
    some (Text.digitsValue digits)
  else none

/-- Whether characters are an exponent behind its mark: digits, which a sign may lead. -/
def isExponent (cs : List Char) : Bool :=
  let digits := match cs with
    | '-' :: rest => rest
    | cs => withoutPlus cs
  !digits.isEmpty && digits.all Char.isDigit

/-- Whether characters are a number without a sign: digits with at most one point among or beside them, and perhaps an
exponent. -/
def isUnsignedReal (cs : List Char) : Bool :=
  let whole := cs.takeWhile Char.isDigit
  let rest := cs.dropWhile Char.isDigit
  let (fraction, rest) := match rest with
    | '.' :: rest => (rest.takeWhile Char.isDigit, rest.dropWhile Char.isDigit)
    | rest => ([], rest)
  !(whole ++ fraction).isEmpty && match rest with
    | [] => true
    | e :: rest => (e = 'e' || e = 'E') && isExponent rest

/-- The float of a number without a sign, which may also be infinite or none at all, in letters of either case. -/
def unsignedReal? (cs : List Char) : Option Float :=
  let word : String := .ofList (cs.map Char.toLower)
  if word = "inf" || word = "infinity" then some (1.0 / 0.0)
  else if word = "nan" then some (0.0 / 0.0)
  else if isUnsignedReal cs then some (Json.numeral cs).toFloat
  else none

/-- The float of a number. -/
def real? (s : String) : Option Float :=
  match s.toList with
  | '-' :: cs => (unsignedReal? cs).map fun x => -x
  | cs => unsignedReal? (withoutPlus cs)

end CloudFleet.Decimal
