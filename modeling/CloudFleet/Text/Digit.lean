/-!
# Digits

`hexDigit` is a digit of a hexadecimal numeral, and `digitsValue` the value of a decimal one.
-/

set_option autoImplicit false

namespace CloudFleet.Text

/-- A digit of a hexadecimal numeral, in lower case. -/
def hexDigit (n : Nat) : Char := if n < 10 then Char.ofNat (48 + n) else Char.ofNat (87 + n)

/-- The value of decimal digits. -/
def digitsValue (cs : List Char) : Nat := cs.foldl (fun n c => n * 10 + (c.toNat - 48)) 0

end CloudFleet.Text
