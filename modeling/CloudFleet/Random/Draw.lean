/-!
# Random draws

A draw consumes random words from a list and fails if they run out. `Draw.below` draws a number below a bound, each
with the same probability: the high half of the product of a word with the bound, where products whose low half is
beyond the last full multiple of the bound are drawn again. `Draw.shuffle` exchanges each element, from the last to
the second, with one at a drawn place up to its own.
-/

set_option autoImplicit false

namespace CloudFleet

/-- What a number of random words determine, with the words that are left. -/
def Draw (α : Type) : Type := List UInt64 → Option (α × List UInt64)

namespace Draw

variable {α β : Type}

instance : Monad Draw where
  pure a := fun words => some (a, words)
  bind d f := fun words => match d words with
    | some (a, rest) => f a rest
    | none => none

/-- The words that count as they are in a draw of so many bits: the low bits of a word. -/
def lowBits (bits : Nat) (word : UInt64) : Nat := word.toNat % (1 <<< bits)

/-- The greatest low half of a product that is accepted: one less than the bound, shifted to the top of the word. -/
def zone (bits bound : Nat) : Nat := (bound <<< (bits - (Nat.log2 bound + 1))) - 1

/-- Draw words until the low half of the product with the bound is accepted; the number is the high half. -/
def rejecting (bits bound : Nat) : Draw Nat
  | [] => none
  | word :: rest =>
    let product := lowBits bits word * bound
    if product % (1 <<< bits) ≤ zone bits bound then some (product >>> bits, rest) else rejecting bits bound rest

/-- A number below `bound` from words of so many bits. A bound of `2 ^ bits` takes a word as it is. -/
def below (bits bound : Nat) : Draw Nat :=
  if bound = 1 <<< bits then fun words => match words with
    | [] => none
    | word :: rest => some (lowBits bits word, rest)
  else rejecting bits bound

/-- A list with two places exchanged. -/
def exchange (as : List α) (i j : Nat) : List α :=
  match as[i]?, as[j]? with
  | some a, some b => (as.set i b).set j a
  | _, _ => as

/-- The bits of the draws of one of so many places: half a word as long as it can tell them apart. -/
def placeBits (places : Nat) : Nat := if places < 1 <<< 32 then 32 else 64

/-- Exchange the elements from place `n` down to place 1, each with one at a place up to its own. -/
def shuffleDown (as : List α) : Nat → Draw (List α)
  | 0 => pure as
  | n + 1 => do
    let j ← below (placeBits (n + 2)) (n + 2)
    shuffleDown (exchange as (n + 1) j) n

/-- A random order of a list. -/
def shuffle (as : List α) : Draw (List α) := shuffleDown as (as.length - 1)

/-- As many draws as asked for. -/
def times (d : Draw α) : Nat → Draw (List α)
  | 0 => pure []
  | n + 1 => do
    let a ← d
    let as ← times d n
    pure (a :: as)

end Draw

end CloudFleet
