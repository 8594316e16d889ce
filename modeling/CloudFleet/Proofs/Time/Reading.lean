import CloudFleet.Proofs.Json.Scalars
import CloudFleet.Proofs.Time.Calendar
import CloudFleet.Time.Reading
import Mathlib.Algebra.Ring.Nat

/-!
# Written instants are read back

An instant of the clock (`Instant.Proper`) is within its second, or in the leap second that ends its minute. Instants
that are counted in nanoseconds, and those moved from such ones, are of this kind (`proper_ofNanos`, `Proper.add`). An
instant of the clock is read back from its text, if its year has four digits (`read?_isoText`): numbers with zeros in
front are read back one by one (`Figures`), the date because the calendar agrees with the count of days, and the
fraction because it is written with as many digits as are exact.
-/

set_option autoImplicit false

namespace CloudFleet
namespace Instant

open Text (digitsValue isBlank trimStart)

/-! ## Instants of the clock -/

/-- The instant is within its second, or in the leap second at the end of its minute. -/
def Proper (t : Instant) : Prop :=
  t.nanos < nanosPerSecond ∨ (t.nanos < 2 * nanosPerSecond ∧ t.seconds % 60 = 59)

theorem proper_ofNanos (n : Int) : (ofNanos n).Proper := by
  have hpositive : (0 : Int) < nanosPerSecond := by decide
  have hlt := Int.emod_lt_of_pos n hpositive
  have hnonneg := Int.emod_nonneg n (Int.ne_of_gt hpositive)
  exact .inl (by show (n % nanosPerSecond).toNat < nanosPerSecond; omega)

/-- An instant that is moved stays one of the clock: within a leap second it keeps its second, and elsewhere it is
counted in nanoseconds. -/
theorem Proper.add {t : Instant} (h : t.Proper) (n : Int) : (t.add n).Proper := by
  unfold Instant.add
  split
  · rename_i hleap
    simp only [inLeapSecond, decide_eq_true_eq] at hleap
    dsimp only
    split
    · exact proper_ofNanos _
    · split
      · exact proper_ofNanos _
      · rename_i hleft hback
        rcases h with h | ⟨hnanos, hsecond⟩
        · exact absurd hleap (Nat.not_le_of_lt h)
        · refine .inr ⟨?_, hsecond⟩
          show (t.nanos + n).toNat < 2 * nanosPerSecond
          have hcast : ((2 * nanosPerSecond : Nat) : Int) = 2 * (nanosPerSecond : Int) := by simp
          omega
  · exact proper_ofNanos _

/-! ## Numbers with zeros in front -/

/-- The characters are so many digits with a value. -/
structure Figures (width value : Nat) (cs : List Char) : Prop where
  length : cs.length = width
  digits : ∀ c ∈ cs, c.isDigit = true
  value : digitsValue cs = value

theorem digitsValue_append_zeros (n : Nat) (cs : List Char) :
    digitsValue (List.replicate n '0' ++ cs) = digitsValue cs := by
  simp only [Json.digitsValue_eq]
  rw [Nat.ofDigitChars_append, Nat.ofDigitChars_replicate_zero, Nat.mul_zero]

/-- A number that fits its width is written with exactly so many digits. -/
theorem figures_zeroPadded (width n : Nat) (hwidth : 0 < width) (hn : n < 10 ^ width) :
    Figures width n (zeroPadded width n).toList := by
  have hdigits : (toString n).toList = Nat.toDigits 10 n := by rw [Nat.toString_eq_repr, Nat.toList_repr]
  have hlength : (toString n).length = (Nat.toDigits 10 n).length := by rw [← hdigits, String.length_toList]
  have hle : (Nat.toDigits 10 n).length ≤ width := (Nat.length_toDigits_le_iff (by decide) hwidth).mpr hn
  have heq : (zeroPadded width n).toList
      = List.replicate (width - (Nat.toDigits 10 n).length) '0' ++ Nat.toDigits 10 n := by
    rw [zeroPadded]
    simp only [String.toList_append, String.toList_ofList, hdigits, hlength]
  rw [heq]
  refine ⟨by simp only [List.length_append, List.length_replicate]; omega, fun c hc => ?_, ?_⟩
  · rcases List.mem_append.mp hc with hc | hc
    · rw [List.eq_of_mem_replicate hc]; decide
    · exact Json.isDigit_toDigits n c hc
  · rw [digitsValue_append_zeros, Json.digitsValue_toDigits]

theorem isBlank_of_isDigit {c : Char} (h : c.isDigit = true) : isBlank c = false := by
  simp only [Char.isDigit, Bool.and_eq_true, decide_eq_true_eq] at h
  obtain ⟨hlow, hhigh⟩ := h
  have hlow : 48 ≤ c.toNat := hlow
  have hhigh : c.toNat ≤ 57 := hhigh
  simp only [isBlank, Bool.or_eq_false_iff, Bool.and_eq_false_iff, decide_eq_false_iff_not, beq_eq_false_iff_ne]
  omega

theorem trimStart_of_not_isBlank {c : Char} (h : isBlank c = false) (cs : List Char) :
    trimStart (c :: cs) = c :: cs := by
  rw [trimStart, List.dropWhile_cons_of_neg (by simp [h])]

section Figures

variable {width value : Nat} {cs rest : List Char} (h : Figures width value cs) (hwidth : 0 < width)
include h hwidth

theorem Figures.exists_cons : ∃ c ds, cs = c :: ds ∧ c.isDigit = true := by
  cases cs with
  | nil => exact absurd h.length (Nat.ne_of_lt hwidth)
  | cons c ds => exact ⟨c, ds, rfl, h.digits c List.mem_cons_self⟩

/-- Digits are scanned if no more than these may be taken, or none follow. -/
theorem Figures.scanDigits {most : Nat} (hmost : width ≤ most)
    (hrest : width = most ∨ ∀ c ∈ rest.head?, c.isDigit = false) :
    scanDigits most (cs ++ rest) = some (cs, rest) := by
  have hlength := h.length
  have htake : ((cs ++ rest).take most).takeWhile Char.isDigit = cs := by
    rw [List.take_append, List.take_of_length_le (by omega), List.takeWhile_append_of_pos h.digits]
    rcases hrest with rfl | hrest
    · simp [hlength]
    · cases rest with
      | nil => simp
      | cons c rest =>
        cases hleft : most - cs.length with
        | zero => simp
        | succ n => simp [hrest c rfl]
  obtain ⟨c, ds, hcs, -⟩ := h.exists_cons hwidth
  unfold Instant.scanDigits
  rw [htake]
  subst hcs
  simp

theorem Figures.scanNumber : scanNumber width (cs ++ rest) = some (value, rest) := by
  have hscan : Instant.scanDigits width (cs ++ rest) = some (cs, rest) :=
    h.scanDigits hwidth (Nat.le_refl width) (.inl rfl)
  obtain ⟨c, ds, hcs, hc⟩ := h.exists_cons hwidth
  have htrim : trimStart (cs ++ rest) = cs ++ rest := by
    rw [hcs]
    exact trimStart_of_not_isBlank (isBlank_of_isDigit hc) (ds ++ rest)
  have hvalue : digitsValue cs = value := h.value
  rw [Instant.scanNumber, htrim, hscan]
  simp [hvalue]

end Figures

theorem scanYear_figures {value : Nat} {cs rest : List Char} (h : Figures 4 value cs) :
    scanYear (cs ++ rest) = some ((value : Int), rest) := by
  have hscan : scanNumber 4 (cs ++ rest) = some (value, rest) := h.scanNumber (by decide)
  obtain ⟨c, ds, rfl, hc⟩ := h.exists_cons (by decide)
  have hminus : c ≠ '-' := by rintro rfl; exact absurd hc (by decide)
  have hplus : c ≠ '+' := by rintro rfl; exact absurd hc (by decide)
  unfold scanYear
  rw [List.cons_append] at hscan ⊢
  rw [trimStart_of_not_isBlank (isBlank_of_isDigit hc)]
  split
  · rename_i heq; exact absurd (List.cons.inj heq).1 hminus
  · rename_i heq; exact absurd (List.cons.inj heq).1 hplus
  · rw [hscan]; rfl

theorem scanMark_cons {c : Char} (hc : isBlank c = false) (rest : List Char) : scanMark c (c :: rest) = some rest := by
  rw [scanMark, trimStart_of_not_isBlank hc]
  simp

/-! ## Dates, times of day and fractions -/

/-- A date of the calendar is read back, if its year has at most four digits. -/
theorem scanDate_text {d : Date} (hvalid : d.isValid = true) (hyear : 0 ≤ d.year ∧ d.year ≤ 9999)
    (rest : List Char) : scanDate (d.text.toList ++ rest) = some (d, rest) := by
  have hmonth := Date.month_le_of_isValid hvalid
  have hday := Date.day_le_of_isValid hvalid
  have hy := figures_zeroPadded 4 d.year.toNat (by decide) (by omega)
  have hm := figures_zeroPadded 2 d.month (by decide) (by omega)
  have hd := figures_zeroPadded 2 d.day (by decide) (by omega)
  have hcast : ((d.year.toNat : Nat) : Int) = d.year := Int.toNat_of_nonneg hyear.1
  have heq : d.text.toList ++ rest = (zeroPadded 4 d.year.toNat).toList ++ '-' :: ((zeroPadded 2 d.month).toList
      ++ '-' :: ((zeroPadded 2 d.day).toList ++ rest)) := by
    have htext : d.text = zeroPadded 4 d.year.toNat ++ "-" ++ zeroPadded 2 d.month ++ "-" ++ zeroPadded 2 d.day := by
      rw [Date.text, Date.yearText, if_pos hyear]
      rfl
    simp [htext]
  rw [heq, scanDate]
  simp only [scanYear_figures hy, hm.scanNumber (by decide), hd.scanNumber (by decide),
    scanMark_cons (c := '-') (by decide), Option.bind_eq_bind, Option.bind_some, hcast]
  rw [if_pos hvalid]
  rfl

/-- As many digits of the fraction as are written give the nanoseconds. -/
theorem scanFraction_figures (places n : Nat) (hplaces : 0 < places) (hle : places ≤ 9) (hn : n < 10 ^ places)
    {rest : List Char} (hrest : ∀ c ∈ rest.head?, c.isDigit = false) :
    scanFraction ('.' :: ((zeroPadded places n).toList ++ rest)) = some (n * Nat.pow 10 (9 - places), rest) := by
  have hfigures := figures_zeroPadded places n hplaces hn
  have hvalue : digitsValue (zeroPadded places n).toList = n := hfigures.value
  have hdrop : rest.dropWhile Char.isDigit = rest := by
    cases rest with
    | nil => rfl
    | cons c rest => rw [List.dropWhile_cons_of_neg (by simp [hrest c rfl])]
  rw [scanFraction, hfigures.scanDigits hplaces hle (.inr hrest)]
  simp [hvalue, hfigures.length, hdrop]

/-- The fraction of a second is read back. -/
theorem scanFraction_fractionText (t : Instant) (rest : List Char)
    (hrest : ∀ c ∈ rest.head?, c.isDigit = false ∧ c ≠ '.') :
    scanFraction (t.fractionText.toList ++ rest) = some (t.nanos % nanosPerSecond, rest) := by
  have hdigit : ∀ c ∈ rest.head?, c.isDigit = false := fun c hc => (hrest c hc).1
  have hlt : t.nanos % nanosPerSecond < 1000000000 := Nat.mod_lt _ (by decide)
  unfold fractionText
  dsimp only
  generalize t.nanos % nanosPerSecond = n at hlt ⊢
  split
  · rename_i hzero
    rw [hzero]
    unfold scanFraction
    split
    · rename_i heq
      exact absurd rfl (hrest '.' (by simp_all)).2
    · rfl
  split
  · rename_i hmillis
    have hscan := scanFraction_figures 3 (n / 1000000) (by decide) (by decide) (by omega) hdigit
    have hvalue : n / 1000000 * Nat.pow 10 (9 - 3) = n := Nat.div_mul_cancel (Nat.dvd_of_mod_eq_zero hmillis)
    simpa [hvalue] using hscan
  split
  · rename_i hmicros
    have hscan := scanFraction_figures 6 (n / 1000) (by decide) (by decide) (by omega) hdigit
    have hvalue : n / 1000 * Nat.pow 10 (9 - 6) = n := Nat.div_mul_cancel (Nat.dvd_of_mod_eq_zero hmicros)
    simpa [hvalue] using hscan
  · have hscan := scanFraction_figures 9 n (by decide) (by decide) (by omega) hdigit
    simpa using hscan

/-- The time of day is read back. -/
theorem scanClock_text {t : Instant} (h : t.Proper) :
    scanClock ((t.clockText ":").toList ++ (t.fractionText.toList ++ ['Z']))
      = some ((t.seconds % daySeconds).toNat, t.nanos, ['Z']) := by
  obtain ⟨s, hs⟩ : ∃ s, s = (t.seconds % daySeconds).toNat := ⟨_, rfl⟩
  have hday : s < 86400 := by simp only [hs, daySeconds]; omega
  have hminute : (s : Int) % 60 = t.seconds % 60 := by simp only [hs, daySeconds]; omega
  have hsecond : s % 60 + t.nanos / nanosPerSecond ≤ 60
      ∧ (s % 60 + t.nanos / nanosPerSecond) / 60 = t.nanos / nanosPerSecond := by
    rcases h with h | ⟨hnanos, hlast⟩
    · rw [Nat.div_eq_of_lt h]; omega
    · have hle : t.nanos / nanosPerSecond ≤ 1 := by simp only [nanosPerSecond] at hnanos ⊢; omega
      generalize t.nanos / nanosPerSecond = leap at hle ⊢
      omega
  have hh := figures_zeroPadded 2 (s / 3600) (by decide) (by omega)
  have hm := figures_zeroPadded 2 (s / 60 % 60) (by decide) (by omega)
  have hc := figures_zeroPadded 2 (s % 60 + t.nanos / nanosPerSecond) (by decide) (by omega)
  have heq : (t.clockText ":").toList ++ (t.fractionText.toList ++ ['Z']) = (zeroPadded 2 (s / 3600)).toList
      ++ ':' :: ((zeroPadded 2 (s / 60 % 60)).toList
      ++ ':' :: ((zeroPadded 2 (s % 60 + t.nanos / nanosPerSecond)).toList ++ (t.fractionText.toList ++ ['Z']))) := by
    simp [clockText, clock, hs]
  have hend : ∀ c ∈ ['Z'].head?, c.isDigit = false ∧ c ≠ '.' := fun c hc => Option.mem_some.mp hc ▸ (by decide)
  have hrange : s / 3600 ≤ 23 ∧ s / 60 % 60 ≤ 59 ∧ s % 60 + t.nanos / nanosPerSecond ≤ 60 := by omega
  have htotal : s / 3600 * 3600 + s / 60 % 60 * 60
      + (s % 60 + t.nanos / nanosPerSecond - t.nanos / nanosPerSecond) = s := by omega
  have hnanos : t.nanos % nanosPerSecond + t.nanos / nanosPerSecond * nanosPerSecond = t.nanos :=
    Nat.mod_add_div' t.nanos nanosPerSecond
  rw [heq, scanClock, ← hs]
  simp only [hh.scanNumber (by decide), hm.scanNumber (by decide), hc.scanNumber (by decide),
    scanMark_cons (c := ':') (by decide), scanFraction_fractionText t ['Z'] hend, Option.bind_eq_bind,
    Option.bind_some]
  rw [if_pos hrange, hsecond.2, htotal, hnanos]
  rfl

/-! ## Instants -/

theorem inRange_of_year {t : Instant} (h : 0 ≤ t.date.year ∧ t.date.year ≤ 9999) : t.inRange = true := by
  obtain ⟨year, day, hsplit, heq⟩ := Date.ofDays_spec (t.seconds / daySeconds)
  obtain rfl : t.date.year = year := congrArg Date.year heq
  have hfirst : firstSecond ≤ -1000000000000 := by decide
  have hend : 1000000000000 ≤ endSecond := by decide
  have hstart := hsplit.start
  have hday : 0 ≤ day ∧ day < 366 := by
    refine ⟨hsplit.nonneg, Int.lt_of_lt_of_le hsplit.inYear ?_⟩
    unfold Date.yearLength
    split <;> decide
  simp only [Date.yearStart, Date.epoch, daySeconds] at hstart
  simp only [inRange, Bool.and_eq_true, decide_eq_true_eq]
  omega

/-- **An instant of the clock is read back, if its year has at most four digits.** -/
theorem read?_isoText {t : Instant} (h : t.Proper) (hyear : 0 ≤ t.date.year ∧ t.date.year ≤ 9999) :
    read? (t.isoText "Z") = some t := by
  have hvalid : t.date.isValid = true := Date.isValid_ofDays _
  have hdays : t.date.days = t.seconds / daySeconds := Date.days_ofDays _
  have heq : (t.isoText "Z").toList
      = t.date.text.toList ++ 'T' :: ((t.clockText ":").toList ++ (t.fractionText.toList ++ ['Z'])) := by
    simp [isoText]
  have hseconds : t.seconds / daySeconds * daySeconds + ((t.seconds % daySeconds).toNat : Int) - 0 = t.seconds := by
    simp only [daySeconds]; omega
  have hoffset : scanOffset ['Z'] = some (0, []) := rfl
  rw [read?, heq, scanDate_text hvalid hyear]
  simp only [Option.bind_eq_bind, Option.bind_some, true_or, if_true, scanClock_text h, hoffset, hdays, hseconds,
    inRange_of_year hyear]
  rfl

end Instant
end CloudFleet
