import CloudFleet.Region.Basic

/-!
# Placement plans

A plan lists regions with the number of instances wanted in each. `Plan.distribute` deals instances out one at a
time, from the first region to the last and round again, so the first regions get one more when the number of
regions does not divide the number of instances.
-/

set_option autoImplicit false

namespace CloudFleet

/-- One more than the greatest count that fits a machine word. -/
def wordLimit : Nat := 1 <<< 64

/-- The sum of machine words, if it is one itself. -/
def wordSum? (ns : List Nat) : Option Nat :=
  ns.foldl (fun sum n => sum.bind fun s => if s + n < wordLimit then some (s + n) else none) (some 0)

/-- Instances wanted per region, in placement order. -/
structure Plan where
  /-- The regions with their counts; a region may be listed more than once. -/
  counts : List (Region × Nat)
deriving DecidableEq, Inhabited

namespace Plan

/-- Deals one instance to the entry at position `i`. -/
def dealOne (counts : List (Region × Nat)) (i : Nat) : List (Region × Nat) :=
  counts.modify i fun entry => (entry.1, entry.2 + 1)

/-- Deals `n` instances to the entries in turn. -/
def deal (counts : List (Region × Nat)) (n : Nat) : List (Region × Nat) :=
  n.fold (fun i _ dealt => dealOne dealt (i % counts.length)) counts

/-- The plan that deals `n` instances out over `regions`. -/
def distribute (n : Nat) (regions : List Region) : Plan :=
  if regions.isEmpty then ⟨[]⟩ else ⟨deal (regions.map fun r => (r, 0)) n⟩

/-- The number of instances wanted in a region: that of its first entry. -/
def count (p : Plan) (r : Region) : Nat :=
  (p.counts.lookup r).getD 0

/-- The number of instances of a plan, if it is a machine word. -/
def total? (p : Plan) : Option Nat := wordSum? (p.counts.map Prod.snd)

/-- The regions of the entries with a positive count. -/
def regions (p : Plan) : List Region :=
  (p.counts.filter fun entry => 0 < entry.2).map Prod.fst

end Plan

end CloudFleet
