import CloudFleet.Random.Draw

/-!
# What draws give

A number that is drawn below a bound is below it, whichever words it is drawn from (`Draw.lt_of_below`), and a shuffle
gives the elements of a list in another order (`Draw.perm_of_shuffle`). Draws that are put together from these end as
soon as they are fed enough words, and do not depend on the words that follow (`Draw.Fed`).
-/

set_option autoImplicit false

namespace CloudFleet.Draw

variable {α β : Type}

/-! ## Draws one after the other -/

theorem bind_eq (d : Draw α) (f : α → Draw β) (words : List UInt64) :
    (d >>= f) words = (d words).bind fun drawn => f drawn.1 drawn.2 := by
  simp only [bind]
  cases d words <;> rfl

theorem bind_eq_some {d : Draw α} {f : α → Draw β} {words rest : List UInt64} {b : β}
    (h : (d >>= f) words = some (b, rest)) : ∃ a mid, d words = some (a, mid) ∧ f a mid = some (b, rest) := by
  rw [bind_eq] at h
  obtain ⟨⟨a, mid⟩, hd, hf⟩ := Option.bind_eq_some_iff.mp h
  exact ⟨a, mid, hd, hf⟩

theorem bind_of_eq_some {d : Draw α} {words mid : List UInt64} {a : α} (h : d words = some (a, mid))
    (f : α → Draw β) : (d >>= f) words = f a mid := by
  rw [bind_eq, h]
  rfl

theorem length_times {d : Draw α} {n : Nat} {words rest : List UInt64} {as : List α}
    (h : times d n words = some (as, rest)) : as.length = n := by
  induction n generalizing words rest as with
  | zero =>
    cases h
    rfl
  | succ n ih =>
    obtain ⟨a, mid, -, h⟩ := bind_eq_some h
    obtain ⟨later, mid', hlater, h⟩ := bind_eq_some h
    cases h
    rw [List.length_cons, ih hlater]

/-- Each of several draws is a draw. -/
theorem drawn_of_mem_times {d : Draw α} {n : Nat} {words rest : List UInt64} {as : List α}
    (h : times d n words = some (as, rest)) {a : α} (ha : a ∈ as) : ∃ before after, d before = some (a, after) := by
  induction n generalizing words rest as with
  | zero =>
    cases h
    cases ha
  | succ n ih =>
    obtain ⟨first, mid, hfirst, h⟩ := bind_eq_some h
    obtain ⟨later, mid', hlater, h⟩ := bind_eq_some h
    cases h
    rcases List.mem_cons.mp ha with rfl | ha
    · exact ⟨words, mid, hfirst⟩
    · exact ih hlater ha

/-! ## Numbers below a bound -/

theorem lowBits_lt (bits : Nat) (word : UInt64) : lowBits bits word < 1 <<< bits := by
  refine Nat.mod_lt _ ?_
  rw [Nat.shiftLeft_eq, Nat.one_mul]
  exact Nat.two_pow_pos bits

/-- A word is accepted, or the draw goes on with the words after it. -/
theorem rejecting_cons (bits bound : Nat) (word : UInt64) (words : List UInt64) :
    rejecting bits bound (word :: words)
      = if lowBits bits word * bound % (1 <<< bits) ≤ zone bits bound
        then some ((lowBits bits word * bound) >>> bits, words) else rejecting bits bound words := rfl

/-- The high half of a product with the bound is below it. -/
theorem lt_of_rejecting {bits bound n : Nat} (hbound : 0 < bound) {words rest : List UInt64}
    (h : rejecting bits bound words = some (n, rest)) : n < bound := by
  induction words with
  | nil => cases h
  | cons word words ih =>
    rw [rejecting_cons] at h
    split at h
    · cases h
      have hlow := lowBits_lt bits word
      rw [Nat.shiftLeft_eq, Nat.one_mul] at hlow
      rw [Nat.shiftRight_eq_div_pow, Nat.div_lt_iff_lt_mul (Nat.two_pow_pos bits), Nat.mul_comm bound]
      exact Nat.mul_lt_mul_of_pos_right hlow hbound
    · exact ih h

/-- A bound of all words of so many bits takes a word as it is. -/
theorem below_full (bits : Nat) (words : List UInt64) : below bits (1 <<< bits) words = match words with
    | [] => none
    | word :: rest => some (lowBits bits word, rest) := by
  have hfull : below bits (1 <<< bits) = fun words : List UInt64 => match words with
      | [] => none
      | word :: rest => some (lowBits bits word, rest) := if_pos rfl
  rw [hfull]

/-- Any other bound rejects some words. -/
theorem below_of_ne {bits bound : Nat} (h : bound ≠ 1 <<< bits) : below bits bound = rejecting bits bound := if_neg h

/-- A number that is drawn below a bound is below it. -/
theorem lt_of_below {bits bound n : Nat} (hbound : 0 < bound) {words rest : List UInt64}
    (h : below bits bound words = some (n, rest)) : n < bound := by
  by_cases hfull : bound = 1 <<< bits
  · subst hfull
    rw [below_full] at h
    cases words with
    | nil => cases h
    | cons word words =>
      cases h
      exact lowBits_lt bits word
  · rw [below_of_ne hfull] at h
    exact lt_of_rejecting hbound h

/-! ## Shuffling -/

theorem exchange_perm (as : List α) (i j : Nat) : (exchange as i j).Perm as := by
  unfold exchange
  split
  · rename_i a b ha hb
    obtain ⟨hi, rfl⟩ := List.getElem?_eq_some_iff.mp ha
    obtain ⟨hj, rfl⟩ := List.getElem?_eq_some_iff.mp hb
    exact List.set_set_perm hi hj
  · exact .refl as

/-- Each exchange on the way down leaves the elements the same. -/
theorem perm_of_shuffleDown {n : Nat} {as bs : List α} {words rest : List UInt64}
    (h : shuffleDown as n words = some (bs, rest)) : bs.Perm as := by
  induction n generalizing as words with
  | zero =>
    cases h
    exact .refl bs
  | succ n ih =>
    obtain ⟨j, mid, -, h⟩ := bind_eq_some h
    exact (ih h).trans (exchange_perm as (n + 1) j)

/-- A shuffle gives the elements in another order. -/
theorem perm_of_shuffle {as bs : List α} {words rest : List UInt64} (h : shuffle as words = some (bs, rest)) :
    bs.Perm as := perm_of_shuffleDown h

/-! ## Enough words -/

/-- The draw ends as soon as it is fed enough words, and what it gives does not depend on those that follow. -/
structure Fed (d : Draw α) : Prop where
  more : ∀ {words rest : List UInt64} {a : α}, d words = some (a, rest) → ∀ later,
    d (words ++ later) = some (a, rest ++ later)
  ends : ∀ words, ∃ later a rest, d (words ++ later) = some (a, rest)

namespace Fed

theorem pure (a : α) : Fed (Pure.pure a : Draw α) where
  more h later := by
    cases h
    rfl
  ends words := ⟨[], a, words ++ [], rfl⟩

theorem bind {d : Draw α} {f : α → Draw β} (hd : Fed d) (hf : ∀ a, Fed (f a)) : Fed (d >>= f) where
  more h later := by
    obtain ⟨a, mid, ha, h⟩ := bind_eq_some h
    rw [bind_of_eq_some (hd.more ha later)]
    exact (hf a).more h later
  ends words := by
    obtain ⟨first, a, mid, ha⟩ := hd.ends words
    obtain ⟨second, b, rest, hb⟩ := (hf a).ends mid
    refine ⟨first ++ second, b, rest, ?_⟩
    rw [← List.append_assoc, bind_of_eq_some (hd.more ha second)]
    exact hb

/-- Words are rejected until one is accepted, and the word zero always is. -/
theorem rejecting (bits bound : Nat) : Fed (Draw.rejecting bits bound) where
  more {words rest n} h later := by
    induction words with
    | nil => cases h
    | cons word words ih =>
      rw [rejecting_cons] at h
      show Draw.rejecting bits bound (word :: (words ++ later)) = _
      rw [rejecting_cons]
      split at h
      · rename_i haccepted
        cases h
        exact if_pos haccepted
      · rename_i hrejected
        exact (if_neg hrejected).trans (ih h)
  ends words := by
    induction words with
    | nil =>
      have hzero : lowBits bits 0 * bound % (1 <<< bits) ≤ zone bits bound := by simp [lowBits]
      exact ⟨[0], _, [], (rejecting_cons bits bound 0 []).trans (if_pos hzero)⟩
    | cons word words ih =>
      obtain ⟨later, n, rest, hn⟩ := ih
      have hcons := rejecting_cons bits bound word (words ++ later)
      split at hcons
      · exact ⟨later, _, _, hcons⟩
      · exact ⟨later, n, rest, hcons.trans hn⟩

theorem below (bits bound : Nat) : Fed (Draw.below bits bound) := by
  by_cases hfull : bound = 1 <<< bits
  · subst hfull
    refine ⟨fun {words rest n} h later => ?_, fun words => ?_⟩
    · rw [below_full] at h
      cases words with
      | nil => cases h
      | cons word words =>
        cases h
        exact below_full bits (word :: (rest ++ later))
    · cases words with
      | nil => exact ⟨[0], _, _, below_full bits [0]⟩
      | cons word words => exact ⟨[], lowBits bits word, words ++ [], by rw [List.cons_append, below_full]⟩
  · rw [below_of_ne hfull]
    exact rejecting bits bound

theorem times {d : Draw α} (hd : Fed d) (n : Nat) : Fed (Draw.times d n) := by
  induction n with
  | zero => exact pure []
  | succ n ih => exact hd.bind fun a => ih.bind fun as => pure (a :: as)

theorem shuffleDown (as : List α) (n : Nat) : Fed (Draw.shuffleDown as n) := by
  induction n generalizing as with
  | zero => exact pure as
  | succ n ih => exact (below _ _).bind fun j => ih _

theorem shuffle (as : List α) : Fed (Draw.shuffle as) := shuffleDown as _

end Fed

end CloudFleet.Draw
