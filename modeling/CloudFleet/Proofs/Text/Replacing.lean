import CloudFleet.Text.Blank
import Mathlib.Data.List.Basic

/-!
# Replacing a mark in a text

Where the first occurrence of a mark of two different characters is, and what is left of it behind.

- Behind characters without the mark, it is the mark that stands next (`replaceFirstChars_of_not_occurs`).
- Where the mark occurs before, what is behind stays as it is (`replaceFirstChars_of_occurs`).
- A text without the mark's first character keeps two texts apart (`occurs_append_apart`).
-/

set_option autoImplicit false

namespace CloudFleet.Text

/-! ## Occurrences -/

section Occurrences

variable {part new : List Char}

/-- An occurrence takes as many characters as it has. -/
theorem length_le_of_occurs {cs : List Char} (h : occurs part cs = true) : part.length ≤ cs.length := by
  induction cs with
  | nil => exact Nat.le_of_eq (congrArg List.length (List.isEmpty_iff.mp h))
  | cons c cs ih =>
    rcases Bool.or_eq_true _ _ ▸ h with h | h
    · exact (List.isPrefixOf_iff_prefix.mp h).length_le
    · exact Nat.le_succ_of_le (ih h)

/-- What stands at the front of a longer text stands at the front of any part of it that is long enough. -/
theorem isPrefixOf_append {cs : List Char} (hlength : part.length ≤ cs.length) (post : List Char) :
    part.isPrefixOf (cs ++ post) = part.isPrefixOf cs := by
  rw [Bool.eq_iff_iff, List.isPrefixOf_iff_prefix, List.isPrefixOf_iff_prefix]
  exact ⟨fun h => List.prefix_of_prefix_length_le h (List.prefix_append _ _) hlength,
    fun h => h.trans (List.prefix_append _ _)⟩

/-- Where the part occurs before, nothing behind is replaced. -/
theorem replaceFirstChars_of_occurs (hpart : part ≠ []) {pre : List Char} (h : occurs part pre = true)
    (post : List Char) : replaceFirstChars part new (pre ++ post) = replaceFirstChars part new pre ++ post := by
  induction pre with
  | nil => exact absurd (List.isEmpty_iff.mp h) hpart
  | cons c cs ih =>
    have hlength : part.length ≤ (c :: cs).length := length_le_of_occurs h
    have hsame := isPrefixOf_append hlength post
    rw [List.cons_append] at hsame ⊢
    rw [replaceFirstChars, replaceFirstChars, hsame]
    by_cases hfront : part.isPrefixOf (c :: cs) = true
    · rw [if_pos hfront, if_pos hfront, ← List.cons_append, List.drop_append_of_le_length hlength, List.append_assoc]
    · have hlater : occurs part cs = true := by
        rcases Bool.or_eq_true _ _ ▸ h with h | h
        · exact absurd h hfront
        · exact h
      rw [if_neg hfront, if_neg hfront, ih hlater, List.cons_append]

end Occurrences

/-! ## Marks -/

section Marks

variable {a b : Char}

/-- Whether a mark stands at the front is decided by two characters. -/
theorem isPrefixOf_mark (c d : Char) (cs : List Char) :
    [a, b].isPrefixOf (c :: d :: cs) = (a == c && b == d) := by
  simp [List.isPrefixOf]

/-- Behind characters without the mark it is the next mark that is replaced. -/
theorem replaceFirstChars_of_not_occurs (hab : a ≠ b) (new : List Char) {pre : List Char}
    (h : occurs [a, b] pre = false) (post : List Char) :
    replaceFirstChars [a, b] new (pre ++ a :: b :: post) = pre ++ new ++ post := by
  induction pre with
  | nil =>
    rw [List.nil_append, replaceFirstChars, isPrefixOf_mark, if_pos (by simp)]
    rfl
  | cons c cs ih =>
    obtain ⟨hfront, hlater⟩ := Bool.or_eq_false_iff.mp h
    have hnot : [a, b].isPrefixOf (c :: (cs ++ a :: b :: post)) = false := by
      cases cs with
      | nil => rw [List.nil_append, isPrefixOf_mark, beq_eq_false_iff_ne.mpr hab.symm, Bool.and_false]
      | cons d ds =>
        rw [isPrefixOf_mark] at hfront
        rw [List.cons_append, isPrefixOf_mark, hfront]
    rw [List.cons_append, replaceFirstChars, hnot, if_neg Bool.false_ne_true, ih hlater]
    rfl

/-- Without the first character of a mark there is none. -/
theorem occurs_append_of_not_mem {pre : List Char} (h : a ∉ pre) (post : List Char) :
    occurs [a, b] (pre ++ post) = occurs [a, b] post := by
  induction pre with
  | nil => rfl
  | cons c cs ih =>
    rw [List.mem_cons, not_or] at h
    have hnot : [a, b].isPrefixOf (c :: (cs ++ post)) = false := by simp [List.isPrefixOf, h.1]
    rw [List.cons_append, occurs, hnot, Bool.false_or, ih h.2]

/-- A mark does not reach beyond a character that is not its second one. -/
theorem occurs_append_cons {c : Char} (hc : b ≠ c) (pre post : List Char) :
    occurs [a, b] (pre ++ c :: post) = (occurs [a, b] pre || occurs [a, b] (c :: post)) := by
  induction pre with
  | nil => rfl
  | cons d ds ih =>
    have hsame : [a, b].isPrefixOf (d :: (ds ++ c :: post)) = [a, b].isPrefixOf (d :: ds) := by
      cases ds with
      | nil => simp [List.isPrefixOf, hc]
      | cons e es => rw [List.cons_append, isPrefixOf_mark, isPrefixOf_mark]
    rw [List.cons_append, occurs, occurs, hsame, ih, Bool.or_assoc]

/-- Between two texts that are kept apart by a text without the mark, no mark comes about. -/
theorem occurs_append_apart {c : Char} (hc : b ≠ c) {between : List Char} (h : a ∉ c :: between)
    (pre post : List Char) :
    occurs [a, b] (pre ++ c :: between ++ post) = (occurs [a, b] pre || occurs [a, b] post) := by
  rw [List.append_assoc, List.cons_append, occurs_append_cons hc, ← List.cons_append, occurs_append_of_not_mem h]

end Marks

end CloudFleet.Text
