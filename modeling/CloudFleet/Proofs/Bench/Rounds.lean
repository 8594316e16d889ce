import CloudFleet.Bench.Rounds
import CloudFleet.Proofs.Random.Draw
import Mathlib.Data.Rat.Floor

/-!
# A minority stops early

Every assignment of rounds is the rounds of those that stop early, as they were drawn, with as many others as nodes
are left, in some order (`Rounds.assign_eq_some`). Those that stop early are the third of the nodes, rounded up, less
one (`Rounds.minority_eq`), and no drawn number is above the rounds. Hence three times the nodes that run less are
fewer than the nodes, whatever the words are (`Rounds.assign_shortens_minority`).
-/

set_option autoImplicit false

namespace CloudFleet.Rounds

/-! ## The size of the minority -/

/-- The number of nodes that stop early: none without an adversary or without nodes, and otherwise a third of the
nodes, rounded up, less one. -/
def stopping (nodes : Nat) : Option RoundBound → Nat
  | none => 0
  | some _ => if nodes = 0 then 0 else ⌈(nodes : ℚ) / 3⌉₊ - 1

theorem ceil_third (nodes : Nat) : ⌈(nodes : ℚ) / 3⌉₊ = (nodes + 2) / 3 := by
  refine eq_of_forall_ge_iff fun c => ?_
  have hnat : (nodes + 2) / 3 ≤ c ↔ nodes ≤ c * 3 := by omega
  rw [Nat.ceil_le, hnat, div_le_iff₀ (by norm_num)]
  norm_cast

theorem minority_eq (nodes : Nat) (bound : RoundBound) : minority nodes = stopping nodes (some bound) := by
  rw [minority, stopping, ceil_third]
  split <;> omega

theorem minority_le (nodes : Nat) : minority nodes ≤ nodes := by
  unfold minority
  omega

theorem three_mul_stopping_lt {nodes : Nat} (h : 0 < nodes) (adversary : Option RoundBound) :
    3 * stopping nodes adversary < nodes := by
  cases adversary with
  | none => exact h
  | some bound =>
    rw [← minority_eq, minority]
    omega

/-! ## Drawn rounds -/

theorem fed_drawn (bound : RoundBound) (rounds : UInt64) : Draw.Fed (drawn bound rounds) := by
  cases bound with
  | inclusive => exact (Draw.Fed.below 64 _).bind fun n => .pure _
  | exclusive =>
    unfold drawn
    dsimp only
    split
    · exact .pure 0
    · exact (Draw.Fed.below 64 _).bind fun n => .pure _

/-- A number up to the rounds is a word. -/
theorem toNat_ofNat_of_le {n : Nat} {rounds : UInt64} (h : n ≤ rounds.toNat) : (UInt64.ofNat n).toNat = n :=
  UInt64.toNat_ofNat_of_lt (Nat.lt_of_le_of_lt h rounds.toNat_lt)

/-- No drawn number is above the rounds, and with the exclusive bound it is below them if there are any. -/
theorem drawn_le {bound : RoundBound} {rounds r : UInt64} {words rest : List UInt64}
    (h : drawn bound rounds words = some (r, rest)) : r ≤ rounds ∧ (bound = .exclusive → 0 < rounds → r < rounds) := by
  cases bound with
  | inclusive =>
    obtain ⟨n, mid, hn, h⟩ := Draw.bind_eq_some h
    cases h
    have hle := Nat.le_of_lt_succ (Draw.lt_of_below (Nat.succ_pos _) hn)
    refine ⟨UInt64.le_iff_toNat_le.mpr ?_, nofun⟩
    rw [toNat_ofNat_of_le hle]
    exact hle
  | exclusive =>
    unfold drawn at h
    dsimp only at h
    split at h
    · rename_i hzero
      cases h
      exact ⟨UInt64.zero_le, fun _ hpos => hpos⟩
    · rename_i hzero
      obtain ⟨n, mid, hn, h⟩ := Draw.bind_eq_some h
      cases h
      have hpos : 0 < rounds.toNat := Nat.pos_of_ne_zero fun h => hzero (UInt64.toNat_inj.mp h)
      have hlt := Draw.lt_of_below hpos hn
      have hr : UInt64.ofNat n < rounds := by
        rw [UInt64.lt_iff_toNat_lt, toNat_ofNat_of_le hlt.le]
        exact hlt
      exact ⟨UInt64.le_of_lt hr, fun _ _ => hr⟩

/-! ## The assignment -/

theorem fed_assign (nodes : Nat) (rounds : UInt64) (adversary : Option RoundBound) :
    Draw.Fed (assign nodes rounds adversary) := by
  cases adversary with
  | none => exact .pure _
  | some bound => exact ((fed_drawn bound rounds).times _).bind fun early => .shuffle _

/-- An assignment of rounds: the first of them are drawn for those that stop early, the others are all rounds, and
they are in some order. -/
theorem assign_eq_some {nodes : Nat} {rounds : UInt64} {adversary : Option RoundBound} {words rest : List UInt64}
    {assigned : List UInt64} (h : assign nodes rounds adversary words = some (assigned, rest)) :
    ∃ early left, early.length = stopping nodes adversary ∧
      (∀ bound ∈ adversary, Draw.times (drawn bound rounds) early.length words = some (early, left)) ∧
      assigned.Perm (early ++ List.replicate (nodes - early.length) rounds) := by
  cases adversary with
  | none =>
    cases h
    exact ⟨[], [], rfl, nofun, .refl _⟩
  | some bound =>
    obtain ⟨early, left, hearly, h⟩ := Draw.bind_eq_some h
    have hlength := Draw.length_times hearly
    refine ⟨early, left, hlength.trans (minority_eq nodes bound), ?_, Draw.perm_of_shuffle h⟩
    rintro _ ⟨⟩
    rw [hlength]
    exact hearly

/-- Every node gets rounds. -/
theorem length_assign {nodes : Nat} {rounds : UInt64} {adversary : Option RoundBound} {words rest : List UInt64}
    {assigned : List UInt64} (h : assign nodes rounds adversary words = some (assigned, rest)) :
    assigned.length = nodes := by
  obtain ⟨early, left, hlength, -, hperm⟩ := assign_eq_some h
  have hle : stopping nodes adversary ≤ nodes := by
    cases adversary with
    | none => exact Nat.zero_le nodes
    | some bound => exact minority_eq nodes bound ▸ minority_le nodes
  rw [hperm.length_eq, List.length_append, List.length_replicate]
  omega

/-- What an assignment of rounds to nodes is, whatever words it was drawn from. -/
structure Assigned (nodes : Nat) (rounds : UInt64) (adversary : Option RoundBound) (words assigned : List UInt64) :
    Prop where
  length : assigned.length = nodes
  /-- The first draws are those of the nodes that stop early, and all others run every round. -/
  parts : ∃ early left, early.length = stopping nodes adversary ∧
    (∀ bound ∈ adversary, Draw.times (drawn bound rounds) early.length words = some (early, left)) ∧
    assigned.Perm (early ++ List.replicate (nodes - early.length) rounds) ∧
    ∀ r ∈ early, r ≤ rounds ∧ (adversary = some .exclusive → 0 < rounds → r < rounds)
  bounded : ∀ r ∈ assigned, r ≤ rounds
  exclusive : adversary = some .exclusive → 0 < rounds → assigned.countP (· < rounds) = stopping nodes adversary
  minority : 0 < nodes → 3 * assigned.countP (· < rounds) < nodes

theorem countP_parts {early assigned : List UInt64} {rounds : UInt64} {others : Nat}
    (h : assigned.Perm (early ++ List.replicate others rounds)) :
    assigned.countP (· < rounds) = early.countP (· < rounds) := by
  rw [h.countP_eq, List.countP_append, List.countP_replicate]
  simp [UInt64.lt_irrefl]

/-- No more nodes run other rounds than all of them than those that stop early, whatever is drawn for these. -/
theorem countP_ne_le {nodes : Nat} {rounds : UInt64} {adversary : Option RoundBound} {words rest : List UInt64}
    {assigned : List UInt64} (h : assign nodes rounds adversary words = some (assigned, rest)) :
    assigned.countP (· ≠ rounds) ≤ stopping nodes adversary := by
  obtain ⟨early, left, hlength, -, hperm⟩ := assign_eq_some h
  have hothers : (List.replicate (nodes - early.length) rounds).countP (· ≠ rounds) = 0 := by
    simp [List.countP_replicate]
  rw [hperm.countP_eq, List.countP_append, hothers, Nat.add_zero, ← hlength]
  exact List.countP_le_length

theorem assigned_of_assign {nodes : Nat} {rounds : UInt64} {adversary : Option RoundBound} {words rest : List UInt64}
    {assigned : List UInt64} (h : assign nodes rounds adversary words = some (assigned, rest)) :
    Assigned nodes rounds adversary words assigned := by
  obtain ⟨early, left, hlength, hdrawn, hperm⟩ := assign_eq_some h
  have hearly : ∀ r ∈ early, r ≤ rounds ∧ (adversary = some .exclusive → 0 < rounds → r < rounds) := by
    intro r hr
    cases adversary with
    | none => exact absurd hlength (List.length_pos_of_mem hr).ne'
    | some bound =>
      obtain ⟨before, after, hd⟩ := Draw.drawn_of_mem_times (hdrawn bound rfl) hr
      exact ⟨(drawn_le hd).1, fun h => (drawn_le hd).2 (Option.some.inj h)⟩
  have hcount := countP_parts hperm
  refine ⟨length_assign h, ⟨early, left, hlength, hdrawn, hperm, hearly⟩, fun r hr => ?_, fun hadversary hpos => ?_,
    fun hnodes => ?_⟩
  · rcases List.mem_append.mp (hperm.mem_iff.mp hr) with hr | hr
    · exact (hearly r hr).1
    · exact UInt64.le_of_eq (List.eq_of_mem_replicate hr)
  · rw [hcount, ← hlength, List.countP_eq_length]
    exact fun r hr => decide_eq_true ((hearly r hr).2 hadversary hpos)
  · have hle : early.countP (· < rounds) ≤ stopping nodes adversary := hlength ▸ List.countP_le_length
    have hlt := three_mul_stopping_lt hnodes adversary
    omega

/-- **A minority stops early.** For every number of nodes and rounds and every adversary, more words make the draws
end. Whenever they end, every node has its rounds; those of less than a third of the nodes are the first numbers that
are drawn, of which none is above the rounds, and all other nodes run every round. -/
theorem assign_shortens_minority (nodes : Nat) (rounds : UInt64) (adversary : Option RoundBound) :
    (∀ words, ∃ later, (assign nodes rounds adversary (words ++ later)).isSome) ∧
      ∀ words assigned rest, assign nodes rounds adversary words = some (assigned, rest) →
        Assigned nodes rounds adversary words assigned := by
  refine ⟨fun words => ?_, fun words assigned rest h => assigned_of_assign h⟩
  obtain ⟨later, assigned, rest, h⟩ := (fed_assign nodes rounds adversary).ends words
  exact ⟨later, Option.isSome_iff_exists.mpr ⟨_, h⟩⟩

/-- Seven nodes with the greatest number of rounds, two of which stop early. -/
theorem assign_shortens_minority_seven :
    assign 7 18446744073709551615 (some .inclusive) [5, 9, 0, 1, 2, 3, 4, 5]
        = some (9 :: List.replicate 5 18446744073709551615 ++ [5], []) ∧
      Assigned 7 18446744073709551615 (some .inclusive) [5, 9, 0, 1, 2, 3, 4, 5]
        (9 :: List.replicate 5 18446744073709551615 ++ [5]) := by
  have h : assign 7 18446744073709551615 (some .inclusive) [5, 9, 0, 1, 2, 3, 4, 5]
      = some (9 :: List.replicate 5 18446744073709551615 ++ [5], []) := by decide +kernel
  exact ⟨h, (assign_shortens_minority 7 _ _).2 _ _ _ h⟩

end CloudFleet.Rounds
