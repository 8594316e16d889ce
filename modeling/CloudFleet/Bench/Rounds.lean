import CloudFleet.Bench.Params
import CloudFleet.Random.Draw
import CloudFleet.Random.Mix

/-!
# Rounds of the nodes

Without an adversary every node runs all rounds. With one, a minority of less than a third of the nodes runs a drawn
number of rounds instead, and which nodes those are is drawn as well.
-/

set_option autoImplicit false

namespace CloudFleet.Rounds

/-- The number of nodes that stop early: one less than a third of the nodes, rounded up. -/
def minority (nodes : Nat) : Nat := (nodes + 2) / 3 - 1

/-- The number of rounds of a node that stops early. -/
def drawn (bound : RoundBound) (rounds : UInt64) : Draw UInt64 :=
  match bound with
  | .exclusive =>
    if rounds = 0 then pure 0 else do
      let n ← Draw.below 64 rounds.toNat
      pure (.ofNat n)
  | .inclusive => do
    let n ← Draw.below 64 (rounds.toNat + 1)
    pure (.ofNat n)

/-- The rounds of each node. -/
def assign (nodes : Nat) (rounds : UInt64) (adversary : Option RoundBound) : Draw (List UInt64) :=
  match adversary with
  | none => pure (List.replicate nodes rounds)
  | some bound => do
    let early ← Draw.times (drawn bound rounds) (minority nodes)
    Draw.shuffle (early ++ List.replicate (nodes - early.length) rounds)

/-- The rounds of each node, drawn from given words and then from the sequence behind a counter, with how many words
it took. More and more words are provided until they suffice; `fuel` bounds how often. -/
def assignFrom (nodes : Nat) (rounds : UInt64) (adversary : Option RoundBound) (words : List UInt64) (seed : UInt64) :
    (fuel more : Nat) → Option (List UInt64 × Nat)
  | 0, _ => none
  | fuel + 1, more =>
    let all := words ++ (Random.sequence seed more).1
    match assign nodes rounds adversary all with
    | some (assigned, rest) => some (assigned, all.length - rest.length)
    | none => assignFrom nodes rounds adversary words seed fuel (2 * more + 16)

end CloudFleet.Rounds
