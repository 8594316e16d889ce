import CloudFleet.Time.Civil
import Mathlib.Algebra.Ring.Nat

/-!
# The calendar and the count of days agree

Every number of days is the count of the date that it is taken to (`Date.days_ofDays`), and that date is in the
calendar (`Date.isValid_ofDays`). A day is split into a year, by cycles of 400, 100, 4 and 1 years (`YearSplit`), and
into a month, by the lengths of the months (`splitMonths_spec`).
-/

set_option autoImplicit false

namespace CloudFleet
namespace Date

/-! ## Years -/

/-- The number of days in a year. -/
def yearLength (y : Int) : Int := if isLeap y then 366 else 365

/-- A count of days from 0001-01-01 falls in the year, so many days after its first one. -/
structure YearSplit (n : Int) (year : Int) (day : Int) : Prop where
  start : yearStart year + day = n
  nonneg : 0 ≤ day
  inYear : day < yearLength year

theorem isLeap_iff {y : Int} : isLeap y = true ↔ y % 4 = 0 ∧ (y % 100 ≠ 0 ∨ y % 400 = 0) := by
  simp [isLeap]

/-- The cycles of years take a day to its year. -/
theorem yearSplit_cycles (n : Int) {quads inQuad centuries inCentury fours inFour ones : Int}
    (hquads : quads = n / 146097) (hinQuad : inQuad = n % 146097) (hcenturies : centuries = min 3 (inQuad / 36524))
    (hinCentury : inCentury = inQuad - centuries * 36524) (hfours : fours = inCentury / 1461)
    (hinFour : inFour = inCentury % 1461) (hones : ones = min 3 (inFour / 365)) :
    YearSplit n (400 * quads + 100 * centuries + 4 * fours + ones + 1) (inFour - ones * 365) := by
  have hc : 0 ≤ centuries ∧ centuries ≤ 3 := by omega
  have hi : 0 ≤ inCentury ∧ inCentury ≤ 36524 ∧ (centuries < 3 → inCentury < 36524) := by omega
  have hf : 0 ≤ fours ∧ fours ≤ 24 := by omega
  have ho : 0 ≤ ones ∧ ones ≤ 3 := by omega
  have hday : 0 ≤ inFour - ones * 365 ∧ inFour - ones * 365 ≤ 365 := by omega
  refine ⟨?_, hday.1, ?_⟩
  · have h4 : (400 * quads + 100 * centuries + 4 * fours + ones) / 4 = 100 * quads + 25 * centuries + fours := by omega
    have h100 : (400 * quads + 100 * centuries + 4 * fours + ones) / 100 = 4 * quads + centuries := by omega
    have h400 : (400 * quads + 100 * centuries + 4 * fours + ones) / 400 = quads := by omega
    rw [yearStart, Int.add_sub_cancel, h4, h100, h400]
    omega
  · unfold yearLength
    split
    · omega
    · -- day 365 is in the last year of a cycle of four, which is a leap year
      rename_i hleap
      rw [isLeap_iff] at hleap
      by_cases hlast : inFour - ones * 365 = 365
      · have hones : ones = 3 ∧ inFour = 1460 := by omega
        refine absurd ⟨by omega, ?_⟩ hleap
        by_cases hfours : fours = 24
        · have hcent : centuries = 3 := by omega
          exact .inr (by omega)
        · exact .inl (by omega)
      · omega

/-! ## Months -/

theorem daysBefore_eq_sum (lengths : List Nat) (index : Nat) : daysBefore lengths index = (lengths.take index).sum :=
  List.sum_eq_foldl_nat.symm

/-- A day of the year is split into its month and its place in the month. -/
theorem splitMonths_spec {lengths : List Nat} {n : Nat} (hn : n < lengths.sum) :
    ∃ length, lengths[(splitMonths lengths n).1]? = some length ∧ (splitMonths lengths n).2 < length
      ∧ daysBefore lengths (splitMonths lengths n).1 + (splitMonths lengths n).2 = n := by
  induction lengths generalizing n with
  | nil => simp at hn
  | cons length lengths ih =>
    unfold splitMonths
    split
    · rename_i hlt
      exact ⟨length, rfl, hlt, by simp [daysBefore]⟩
    · obtain ⟨found, hfound, hlt, hsum⟩ := ih (n := n - length) (by simp only [List.sum_cons] at hn; omega)
      refine ⟨found, hfound, hlt, ?_⟩
      rw [daysBefore_eq_sum] at hsum ⊢
      simp only [List.take_succ_cons, List.sum_cons]
      omega

theorem sum_monthLengths (y : Int) : ((monthLengths y).sum : Int) = yearLength y := by
  unfold monthLengths yearLength
  cases isLeap y <;> rfl

/-! ## Dates -/

/-- What a number of days is taken to. -/
theorem ofDays_spec (n : Int) : ∃ (year day : Int), YearSplit (n + epoch) year day
    ∧ ofDays n = ⟨year, (splitMonths (monthLengths year) day.toNat).1 + 1,
        (splitMonths (monthLengths year) day.toNat).2 + 1⟩ :=
  ⟨_, _, yearSplit_cycles (n + epoch) rfl rfl rfl rfl rfl rfl rfl, rfl⟩

theorem toNat_lt_sum {n year day : Int} (h : YearSplit n year day) : day.toNat < (monthLengths year).sum := by
  have hlt := h.inYear
  rw [← sum_monthLengths] at hlt
  have hnonneg := h.nonneg
  omega

/-- **A number of days is the count of the date that it is taken to.** -/
theorem days_ofDays (n : Int) : (ofDays n).days = n := by
  obtain ⟨year, day, hsplit, heq⟩ := ofDays_spec n
  obtain ⟨length, -, -, hsum⟩ := splitMonths_spec (toNat_lt_sum hsplit)
  have hstart := hsplit.start
  have hnonneg := hsplit.nonneg
  rw [heq]
  simp only [days, Nat.add_sub_cancel]
  omega

/-- Every number of days is taken to a date of the calendar. -/
theorem isValid_ofDays (n : Int) : (ofDays n).isValid = true := by
  obtain ⟨year, day, hsplit, heq⟩ := ofDays_spec n
  obtain ⟨length, hlength, hlt, -⟩ := splitMonths_spec (toNat_lt_sum hsplit)
  rw [heq]
  simp only [isValid, Nat.add_sub_cancel, hlength, Bool.and_eq_true, decide_eq_true_eq]
  omega

/-- The months of a date of the calendar are numbered to 12. -/
theorem month_le_of_isValid {d : Date} (h : d.isValid = true) : d.month ≤ 12 := by
  unfold isValid at h
  split at h
  · rename_i length hlength
    have hindex := (List.getElem?_eq_some_iff.mp hlength).1
    simp only [monthLengths, List.length_cons, List.length_nil] at hindex
    omega
  · cases h

/-- No month of the calendar has more than 31 days. -/
theorem day_le_of_isValid {d : Date} (h : d.isValid = true) : d.day ≤ 31 := by
  unfold isValid at h
  split at h
  · rename_i length hlength
    have hall : ∀ n ∈ monthLengths d.year, n ≤ 31 := by
      unfold monthLengths
      cases isLeap d.year <;> decide
    have hle := hall length (List.mem_of_getElem? hlength)
    simp only [Bool.and_eq_true, decide_eq_true_eq] at h
    omega
  · cases h

end Date
end CloudFleet
