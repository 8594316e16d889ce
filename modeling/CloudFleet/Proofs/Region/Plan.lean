import CloudFleet.Region.Plan

/-!
# What a plan wants

A plan is a list of entries, and what it wants in a region is the sum of all entries of the region (`Plan.wanted`); the
count that `Plan.count` looks up is the first entry alone. Dealing `n` instances out gives the entry at position `i` of
`k` its share (`distribute_counts`), so nothing is lost (`countAll_distribute`), the positive entries are the first
`n` (`regions_distribute`), and no two entries differ by more than one (`distribute_deals_in_turn`). Where no region has
two positive entries the first entry of a region is all that is wanted there (`count_of_mem_distribute`), and where one
has, it is too few (`exists_count_lt_wanted`).
-/

set_option autoImplicit false

namespace CloudFleet

/-! ## Sums of counts -/

/-- The sum of all counts. -/
def countAll (counts : List (Region × Nat)) : Nat := counts.foldr (fun entry sum => entry.2 + sum) 0

/-- The sum of the counts of one region. -/
def countIn (r : Region) (counts : List (Region × Nat)) : Nat := countAll (counts.filter fun entry => entry.1 = r)

section Sums

variable (r : Region) (entry : Region × Nat) (counts : List (Region × Nat))

@[simp] theorem countAll_nil : countAll [] = 0 := rfl

@[simp] theorem countAll_cons : countAll (entry :: counts) = entry.2 + countAll counts := rfl

@[simp] theorem countIn_nil : countIn r [] = 0 := rfl

theorem countIn_cons :
    countIn r (entry :: counts) = (if entry.1 = r then entry.2 else 0) + countIn r counts := by
  by_cases h : entry.1 = r <;> simp [countIn, h]

/-- Entries that are zero count for nothing. -/
theorem countAll_filter_pos : countAll (counts.filter fun entry => 0 < entry.2) = countAll counts := by
  induction counts with
  | nil => rfl
  | cons entry counts ih =>
    rcases Nat.eq_zero_or_pos entry.2 with h | h
    · simp [h, ih]
    · simp [h, ih]

theorem countIn_filter_pos : countIn r (counts.filter fun entry => 0 < entry.2) = countIn r counts := by
  induction counts with
  | nil => rfl
  | cons entry counts ih =>
    rw [countIn_cons, ← ih]
    rcases Nat.eq_zero_or_pos entry.2 with h | h
    · simp [h]
    · rw [List.filter_cons_of_pos (by simpa using h), countIn_cons]

theorem countIn_le_countAll : countIn r counts ≤ countAll counts := by
  induction counts with
  | nil => simp
  | cons entry counts ih =>
    rw [countIn_cons, countAll_cons]
    split <;> omega

/-- A region without entries has no count. -/
theorem countIn_of_notMem {r : Region} {counts : List (Region × Nat)} (h : r ∉ counts.map Prod.fst) :
    countIn r counts = 0 := by
  have hnone : counts.filter (fun entry => entry.1 = r) = [] := by
    refine List.filter_eq_nil_iff.mpr fun entry hm heq => h ?_
    exact List.mem_map.mpr ⟨entry, hm, by simpa using heq⟩
  rw [countIn, hnone, countAll_nil]

/-- As often as a region is listed, its count is taken. -/
theorem countIn_map_of_region (count : Region → Nat) (regions : List Region) :
    countIn r (regions.map fun q => (q, count q)) = regions.count r * count r := by
  induction regions with
  | nil => simp
  | cons q regions ih =>
    rw [List.map_cons, countIn_cons, ih]
    by_cases h : q = r
    · subst h
      simp only [if_true, List.count_cons_self]
      rw [Nat.add_mul, Nat.one_mul, Nat.add_comm]
    · simp [h]

/-- An entry is part of the sum of its region. -/
theorem le_countIn {entry : Region × Nat} {counts : List (Region × Nat)} (h : entry ∈ counts) :
    entry.2 ≤ countIn entry.1 counts := by
  induction counts with
  | nil => cases h
  | cons first counts ih =>
    rw [countIn_cons]
    rcases List.mem_cons.mp h with rfl | h
    · rw [if_pos rfl]
      omega
    · have := ih h
      omega

theorem countIn_pos_of_mem {r : Region} {counts : List (Region × Nat)}
    (h : r ∈ (counts.filter fun entry => 0 < entry.2).map Prod.fst) : 0 < countIn r counts := by
  obtain ⟨entry, hm, rfl⟩ := List.mem_map.mp h
  obtain ⟨hm, hpos⟩ := List.mem_filter.mp hm
  exact Nat.lt_of_lt_of_le (by simpa using hpos) (le_countIn hm)

/-- Where every region has one entry, what is taken off the entry of a region is taken off its sum. -/
theorem countIn_map_sub (off : Region → Nat) {counts : List (Region × Nat)} (h : (counts.map Prod.fst).Nodup) :
    countIn r (counts.map fun entry => (entry.1, entry.2 - off entry.1)) = countIn r counts - off r := by
  induction counts with
  | nil => simp
  | cons entry counts ih =>
    obtain ⟨hnot, hnodup⟩ := List.nodup_cons.mp h
    rw [List.map_cons, countIn_cons, countIn_cons, ih hnodup]
    by_cases hr : entry.1 = r
    · subst hr
      simp [countIn_of_notMem hnot]
    · simp [hr]

theorem countAll_map_sub_le (off : Region → Nat) :
    countAll (counts.map fun entry => (entry.1, entry.2 - off entry.1)) ≤ countAll counts := by
  induction counts with
  | nil => simp
  | cons entry counts ih =>
    simp only [List.map_cons, countAll_cons]
    omega

end Sums

/-- Adding up machine words gives their sum, if that is one. -/
theorem wordSum?_counts (counts : List (Region × Nat)) :
    wordSum? (counts.map Prod.snd) = if countAll counts < wordLimit then some (countAll counts) else none := by
  -- once the limit is passed, the sum stays out of range
  let add := fun (sum : Option Nat) (n : Nat) => sum.bind fun s => if s + n < wordLimit then some (s + n) else none
  have hnone : ∀ ns : List Nat, ns.foldl add none = none := by
    intro ns
    induction ns with
    | nil => rfl
    | cons n ns ih => exact ih
  have hfrom : ∀ start < wordLimit, (counts.map Prod.snd).foldl add (some start)
      = if start + countAll counts < wordLimit then some (start + countAll counts) else none := by
    intro start hstart
    induction counts generalizing start with
    | nil => simp [hstart]
    | cons entry counts ih =>
      rw [List.map_cons, List.foldl_cons, countAll_cons, ← Nat.add_assoc]
      by_cases h : start + entry.2 < wordLimit
      · have hadd : add (some start) entry.2 = some (start + entry.2) := if_pos h
        rw [hadd, ih _ h]
      · have hadd : add (some start) entry.2 = none := if_neg h
        rw [hadd, hnone, if_neg (by omega)]
  have h := hfrom 0 (by decide)
  rwa [Nat.zero_add] at h

namespace Plan

/-- The number of instances wanted in a region: the sum of all its entries. -/
def wanted (p : Plan) (r : Region) : Nat := countIn r p.counts

/-! ## Dealing out -/

/-- How many of `n` instances the entry at position `i` of `k` gets. -/
def share (n k i : Nat) : Nat := n / k + if i < n % k then 1 else 0

theorem share_zero (k i : Nat) : share 0 k i = 0 := by simp [share]

/-- One instance more goes to the position whose turn it is. -/
theorem share_succ {k i : Nat} (hi : i < k) (n : Nat) :
    share (n + 1) k i = share n k i + if n % k = i then 1 else 0 := by
  have hk : 0 < k := by omega
  have hmod : n % k < k := Nat.mod_lt n hk
  have hdiv := Nat.div_add_mod n k
  unfold share
  by_cases hlast : n % k + 1 = k
  · have hnext : n + 1 = k * (n / k + 1) := by
      rw [Nat.mul_add, Nat.mul_one]
      omega
    have hdiv' : (n + 1) / k = n / k + 1 := by rw [hnext, Nat.mul_div_cancel_left _ hk]
    have hmod' : (n + 1) % k = 0 := by rw [hnext, Nat.mul_mod_right]
    rw [hdiv', hmod']
    split <;> split <;> split <;> omega
  · have hnext : n + 1 = k * (n / k) + (n % k + 1) := by omega
    have hlt : n % k + 1 < k := by omega
    have hdiv' : (n + 1) / k = n / k := by
      conv => lhs; rw [hnext]
      rw [Nat.mul_add_div hk, Nat.div_eq_of_lt hlt, Nat.add_zero]
    have hmod' : (n + 1) % k = n % k + 1 := by
      conv => lhs; rw [hnext]
      rw [Nat.mul_add_mod, Nat.mod_eq_of_lt hlt]
    rw [hdiv', hmod']
    split <;> split <;> split <;> omega

/-- Later positions do not get more. -/
theorem share_le (n k : Nat) {i j : Nat} (h : i ≤ j) : share n k j ≤ share n k i := by
  unfold share
  split <;> split <;> omega

/-- No two shares differ by more than one. -/
theorem share_le_succ (n k i j : Nat) : share n k i ≤ share n k j + 1 := by
  unfold share
  split <;> split <;> omega

/-- The positions that get anything are the first ones. -/
theorem share_pos_iff {n k i : Nat} (hi : i < k) : 0 < share n k i ↔ i < n := by
  unfold share
  by_cases hn : n < k
  · rw [Nat.div_eq_of_lt hn, Nat.mod_eq_of_lt hn]
    split <;> omega
  · have : 0 < n / k := Nat.div_pos (by omega) (by omega)
    omega

theorem length_deal (counts : List (Region × Nat)) (n : Nat) : (deal counts n).length = counts.length := by
  induction n with
  | zero => rfl
  | succ n ih =>
    rw [deal, Nat.fold_succ]
    exact (List.length_modify ..).trans ih

/-- Every entry gets its share. -/
theorem getElem?_deal (counts : List (Region × Nat)) (n i : Nat) :
    (deal counts n)[i]? = counts[i]?.map fun entry => (entry.1, entry.2 + share n counts.length i) := by
  by_cases hi : i < counts.length
  · induction n with
    | zero =>
      rw [deal, Nat.fold_zero]
      simp [share_zero]
    | succ n ih =>
      rw [deal, Nat.fold_succ, dealOne, List.getElem?_modify, ← deal, ih, share_succ hi]
      cases counts[i]? with
      | none => rfl
      | some entry =>
        by_cases h : n % counts.length = i
        · simp [h, Nat.add_assoc]
        · simp [h]
  · have hlength : counts.length ≤ i := by omega
    rw [List.getElem?_eq_none hlength, List.getElem?_eq_none (by rw [length_deal]; exact hlength)]
    rfl

/-- A plan that was dealt out lists the regions with their shares. -/
theorem distribute_counts (n : Nat) (regions : List Region) :
    (distribute n regions).counts = regions.zipIdx.map fun x => (x.1, share n regions.length x.2) := by
  unfold distribute
  cases hempty : regions.isEmpty with
  | true =>
    rw [List.isEmpty_iff.mp hempty]
    rfl
  | false =>
    rw [if_neg Bool.false_ne_true]
    refine List.ext_getElem? fun i => ?_
    rw [getElem?_deal]
    simp only [List.getElem?_map, List.getElem?_zipIdx, List.length_map, Option.map_map, Nat.zero_add]
    cases regions[i]? <;> simp

/-- Later entries of a plan that was dealt out are not greater. -/
theorem pairwise_distribute (n : Nat) (regions : List Region) :
    (distribute n regions).counts.Pairwise fun a b => b.2 ≤ a.2 := by
  rw [distribute_counts, List.pairwise_map]
  refine List.pairwise_iff_getElem.mpr fun i j hi hj hij => ?_
  simp only [List.getElem_zipIdx, Nat.zero_add]
  exact share_le n _ (Nat.le_of_lt hij)

/-- The positions below a bound, of positions counted from `start` on. -/
theorem filter_zipIdx_lt {α : Type} (as : List α) (n start : Nat) :
    ((as.zipIdx start).filter fun x => x.2 < n).map Prod.fst = as.take (n - start) := by
  induction as generalizing start with
  | nil => simp
  | cons a as ih =>
    rw [List.zipIdx_cons]
    by_cases h : start < n
    · obtain ⟨m, hm⟩ : ∃ m, n - start = m + 1 := ⟨n - start - 1, by omega⟩
      have hrest : n - (start + 1) = m := by omega
      rw [List.filter_cons_of_pos (by simpa using h), List.map_cons, ih, hrest, hm, List.take_succ_cons]
    · have hzero : n - start = 0 := by omega
      have hrest : n - (start + 1) = 0 := by omega
      rw [List.filter_cons_of_neg (by simpa using h), ih, hrest, hzero, List.take_zero, List.take_zero]

/-- Of a plan that was dealt out the first `n` entries are positive. -/
theorem regions_distribute (n : Nat) (regions : List Region) : (distribute n regions).regions = regions.take n := by
  have hpos : ∀ x ∈ regions.zipIdx, decide (0 < share n regions.length x.2) = decide (x.2 < n) := by
    intro x hx
    have hlt : x.2 < regions.length := by simpa using List.snd_lt_of_mem_zipIdx hx
    exact decide_eq_decide.mpr (share_pos_iff hlt)
  rw [Plan.regions, distribute_counts, List.filter_map, List.map_map]
  simp only [Function.comp_def]
  rw [List.filter_congr hpos]
  exact filter_zipIdx_lt regions n 0

theorem countAll_dealOne {counts : List (Region × Nat)} {i : Nat} (h : i < counts.length) :
    countAll (dealOne counts i) = countAll counts + 1 := by
  induction counts generalizing i with
  | nil => cases h
  | cons entry counts ih =>
    cases i with
    | zero =>
      simp only [dealOne, List.modify_zero_cons, countAll_cons]
      omega
    | succ i =>
      have hi : i < counts.length := by simpa using h
      have hrest := ih hi
      simp only [dealOne] at hrest
      simp only [dealOne, List.modify_succ_cons, countAll_cons, hrest]
      omega

theorem countAll_deal (n : Nat) {counts : List (Region × Nat)} (h : counts ≠ []) :
    countAll (deal counts n) = countAll counts + n := by
  induction n with
  | zero => rfl
  | succ n ih =>
    have hlength : 0 < counts.length := List.length_pos_iff.mpr h
    have hturn : n % counts.length < (deal counts n).length := by
      rw [length_deal]
      exact Nat.mod_lt n hlength
    rw [deal, Nat.fold_succ, ← deal, countAll_dealOne hturn, ih, Nat.add_assoc]

/-- All instances are dealt out, if there is any region. -/
theorem countAll_distribute (n : Nat) (regions : List Region) :
    countAll (distribute n regions).counts = if regions = [] then 0 else n := by
  unfold distribute
  by_cases h : regions = []
  · simp [h]
  · have hzero : countAll (regions.map fun r => (r, 0)) = 0 := by
      clear h
      induction regions with
      | nil => rfl
      | cons r regions ih => simpa using ih
    have hmap : regions.map (fun r => (r, 0)) ≠ [] := by simpa using h
    rw [if_neg h, if_neg (by simpa using h), countAll_deal n hmap, hzero, Nat.zero_add]

theorem countAll_distribute_le (n : Nat) (regions : List Region) : countAll (distribute n regions).counts ≤ n := by
  rw [countAll_distribute]
  split <;> omega

/-- **Instances are dealt out in turn.** A plan that was dealt out has one entry for each region, in order, and the one
at position `i` of `k` has `n / k`, and one more if `i` is among the first `n % k`. No two entries differ by more than
one, and later ones are not greater; the first `n` regions are those that get anything. All `n` are dealt out, if there
is any region, so the total is `n` where that is a machine word; without regions the plan is empty. -/
theorem distribute_deals_in_turn (n : Nat) (regions : List Region) :
    (distribute n regions).counts.length = regions.length
      ∧ (∀ i, (distribute n regions).counts[i]? = regions[i]?.map fun r =>
          (r, n / regions.length + if i < n % regions.length then 1 else 0))
      ∧ countAll (distribute n regions).counts = (if regions = [] then 0 else n)
      ∧ (distribute n regions).total?
          = (if regions = [] then some 0 else if n < wordLimit then some n else none)
      ∧ (∀ a ∈ (distribute n regions).counts, ∀ b ∈ (distribute n regions).counts, a.2 ≤ b.2 + 1)
      ∧ ((distribute n regions).counts.Pairwise fun a b => b.2 ≤ a.2)
      ∧ (distribute n regions).regions = regions.take (min n regions.length)
      ∧ distribute n [] = ⟨[]⟩ := by
  have hcounts := distribute_counts n regions
  have hall := countAll_distribute n regions
  refine ⟨?length, fun i => ?entry, hall, ?total, ?balanced, pairwise_distribute n regions, ?positive, rfl⟩
  case length => rw [hcounts, List.length_map, List.length_zipIdx]
  case entry =>
    rw [hcounts, List.getElem?_map, List.getElem?_zipIdx, Option.map_map, Nat.zero_add]
    rfl
  case total =>
    rw [total?, wordSum?_counts, hall]
    split
    · exact if_pos (by decide)
    · rfl
  case balanced =>
    rw [hcounts]
    simp only [List.forall_mem_map]
    exact fun x _ y _ => share_le_succ n _ x.2 y.2
  case positive => exact (regions_distribute n regions).trans List.take_eq_take_min

/-! ## Looking counts up -/

/-- Where counts do not increase and no region has two positive ones, a positive count is the first of its region. -/
theorem lookup_of_mem {counts : List (Region × Nat)} (hpairwise : counts.Pairwise fun a b => b.2 ≤ a.2)
    (hnodup : ((counts.filter fun entry => 0 < entry.2).map Prod.fst).Nodup) {entry : Region × Nat}
    (hm : entry ∈ counts) (hpos : 0 < entry.2) : counts.lookup entry.1 = some entry.2 := by
  induction counts with
  | nil => cases hm
  | cons first counts ih =>
    obtain ⟨hfirst, hrest⟩ := List.pairwise_cons.mp hpairwise
    rcases List.mem_cons.mp hm with rfl | hm
    · exact List.lookup_cons_self
    · have hfirstpos : 0 < first.2 := by
        have := hfirst entry hm
        omega
      rw [List.filter_cons_of_pos (by simpa using hfirstpos), List.map_cons, List.nodup_cons] at hnodup
      have hne : entry.1 ≠ first.1 := by
        intro heq
        refine hnodup.1 (List.mem_map.mpr ⟨entry, List.mem_filter.mpr ⟨hm, by simpa using hpos⟩, heq⟩)
      have hskip : (entry.1 == first.1) = false := by simpa using hne
      rw [List.lookup_cons, hskip]
      exact ih hrest hnodup.2 hm

/-- Where a region has two positive entries, its first one is less than what is wanted in some region. -/
theorem exists_count_lt_wanted (p : Plan) (h : ¬p.regions.Nodup) : ∃ r, p.count r < p.wanted r := by
  obtain ⟨counts⟩ := p
  simp only [regions, count, wanted] at h ⊢
  induction counts with
  | nil => exact absurd List.nodup_nil h
  | cons first counts ih =>
    obtain ⟨q, k⟩ := first
    -- a region whose first entry is too small for the rest has one that is too small for all
    have hrest : (∃ r, 0 < countIn r counts ∧ (counts.lookup r).getD 0 < countIn r counts) →
        ∃ r, (((q, k) :: counts).lookup r).getD 0 < countIn r ((q, k) :: counts) := by
      rintro ⟨r, hpos, hlt⟩
      refine ⟨r, ?_⟩
      rw [countIn_cons, List.lookup_cons]
      by_cases hr : q = r
      · simp [hr]
        omega
      · have hskip : (r == q) = false := by simpa using fun heq : r = q => hr heq.symm
        simp only [hskip, if_neg hr]
        omega
    by_cases hk : 0 < k
    · rw [List.filter_cons_of_pos (by simpa using hk), List.map_cons, List.nodup_cons] at h
      by_cases hq : q ∈ (counts.filter fun entry => 0 < entry.2).map Prod.fst
      · have hpos := countIn_pos_of_mem hq
        refine ⟨q, ?_⟩
        rw [countIn_cons, List.lookup_cons_self]
        simp
        omega
      · obtain ⟨r, hr⟩ := ih fun hnodup => h ⟨hq, hnodup⟩
        exact hrest ⟨r, by omega, hr⟩
    · rw [List.filter_cons_of_neg (by simpa using hk)] at h
      obtain ⟨r, hr⟩ := ih h
      exact hrest ⟨r, by omega, hr⟩

variable {n : Nat} {regions : List Region}

theorem nodup_positive_distribute (h : (regions.take n).Nodup) :
    (((distribute n regions).counts.filter fun entry => 0 < entry.2).map Prod.fst).Nodup := by
  have hregions := regions_distribute n regions
  rw [Plan.regions] at hregions
  rwa [hregions]

/-- Where the regions that get anything are different, the count of a positive entry is its own. -/
theorem count_of_mem_distribute (h : (regions.take n).Nodup) {entry : Region × Nat}
    (hm : entry ∈ (distribute n regions).counts) (hpos : 0 < entry.2) :
    (distribute n regions).count entry.1 = entry.2 := by
  rw [count, lookup_of_mem (pairwise_distribute n regions) (nodup_positive_distribute h) hm hpos]
  rfl

end Plan

end CloudFleet
