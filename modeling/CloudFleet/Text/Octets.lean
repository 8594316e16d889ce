/-!
# Text from octets

`decodeLossy` reads octets as UTF-8 and puts the replacement character for each maximal part that cannot begin or go
on with a character.
-/

set_option autoImplicit false

namespace CloudFleet.Text

/-- The octets that may follow a first octet, and how many octets follow it in all; none for a first octet that
begins no character. -/
def secondOctets (first : Nat) : Option (Nat × Nat × Nat) :=
  if 0xC2 ≤ first ∧ first ≤ 0xDF then some (0x80, 0xBF, 1)
  else if first = 0xE0 then some (0xA0, 0xBF, 2)
  else if first = 0xED then some (0x80, 0x9F, 2)
  else if 0xE1 ≤ first ∧ first ≤ 0xEF then some (0x80, 0xBF, 2)
  else if first = 0xF0 then some (0x90, 0xBF, 3)
  else if 0xF1 ≤ first ∧ first ≤ 0xF3 then some (0x80, 0xBF, 3)
  else if first = 0xF4 then some (0x80, 0x8F, 3)
  else none

/-- The bits that a first octet adds to a character. -/
def leadBits (first : Nat) : Nat :=
  if first < 0xE0 then first % 32 else if first < 0xF0 then first % 16 else first % 8

/-- Where a decoder is: the bits so far, the octets still to come, and the range of the next one. -/
structure Unfinished where
  bits : Nat
  left : Nat
  low : Nat
  high : Nat

/-- What stands for octets that are no text. -/
def replacement : Char := Char.ofNat 0xFFFD

/-- Begin a character. -/
def beginChar (octet : Nat) : List Char × Option Unfinished :=
  if octet < 0x80 then ([Char.ofNat octet], none)
  else
    match secondOctets octet with
    | some (low, high, left) => ([], some ⟨leadBits octet, left, low, high⟩)
    | none => ([replacement], none)

/-- Take one octet: the characters that are complete, and the one under way. -/
def takeOctet (state : Option Unfinished) (octet : Nat) : List Char × Option Unfinished :=
  match state with
  | none => beginChar octet
  | some p =>
    if p.low ≤ octet ∧ octet ≤ p.high then
      let bits := p.bits * 64 + octet % 64
      if p.left ≤ 1 then ([Char.ofNat bits], none) else ([], some ⟨bits, p.left - 1, 0x80, 0xBF⟩)
    else
      let next := beginChar octet
      (replacement :: next.1, next.2)

/-- The characters of octets, after the start of one. -/
def decodeFrom : Option Unfinished → List UInt8 → List Char
  | none, [] => []
  | some _, [] => [replacement]
  | state, octet :: octets =>
    let step := takeOctet state octet.toNat
    step.1 ++ decodeFrom step.2 octets

/-- The text of octets. -/
def decodeLossy (octets : List UInt8) : String := .ofList (decodeFrom none octets)

end CloudFleet.Text
