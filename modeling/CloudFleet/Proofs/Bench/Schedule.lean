import CloudFleet.Bench.Schedule
import Mathlib.Order.Bounds.Defs

/-!
# Schedules are exact

Outside of leap seconds an instant is its number of nanoseconds: moving it adds to them (`Instant.add_eq`), the time
between two of them is their difference (`Instant.since_eq`), and to drop what is left of a second is to go back to the
greatest whole second that is not later (`Instant.truncate_eq`, `Instant.isGreatest_seconds`), before 1970 as after it.

So a schedule is known as soon as a clock can show its start and its end (`plan?_eq`): it starts so many whole seconds
after the second of now (`Exact`), and what is left of it is the time until its end (`Awaited`). Main statement:
`schedule_is_exact`.

A delay is taken as a signed word. One that does not fit is taken as `2 ^ 64` seconds less than it is (`toInt_delay`),
and the run starts before now (`starts_after_its_delay_iff`).
-/

set_option autoImplicit false

namespace CloudFleet

namespace Instant

/-! ## Instants outside of leap seconds -/

/-- Whether a clock can show the instant so many nanoseconds after 1970-01-01T00:00:00Z. -/
def Shown (n : Int) : Prop := (ofNanos n).inRange = true

instance (n : Int) : Decidable (Shown n) := inferInstanceAs (Decidable (_ = true))

@[simp] theorem toNanos_ofNanos (n : Int) : (ofNanos n).toNanos = n := by
  show n / nanosPerSecond * nanosPerSecond + ((n % nanosPerSecond).toNat : Int) = n
  simp only [nanosPerSecond]
  omega

@[simp] theorem inLeapSecond_ofNanos (n : Int) : (ofNanos n).inLeapSecond = false := by
  have hlt : (n % nanosPerSecond).toNat < nanosPerSecond := by
    simp only [nanosPerSecond]
    omega
  exact decide_eq_false (Nat.not_le.mpr hlt)

theorem toNanos_second (k : Int) : (⟨k, 0⟩ : Instant).toNanos = k * nanosPerSecond := Int.add_zero _

theorem ofNanos_second (k : Int) : ofNanos (k * nanosPerSecond) = ⟨k, 0⟩ := by
  have hseconds : k * nanosPerSecond / nanosPerSecond = k := Int.mul_ediv_cancel k (by decide)
  have hnanos : (k * nanosPerSecond % nanosPerSecond).toNat = 0 := by rw [Int.mul_emod_left, Int.toNat_zero]
  rw [ofNanos, hseconds, hnanos]

section Outside

variable {t u : Instant} (ht : t.inLeapSecond = false)
include ht

theorem nanos_lt : t.nanos < nanosPerSecond := Nat.not_le.mp (of_decide_eq_false ht)

/-- Moving an instant adds to its nanoseconds. -/
theorem add_eq (n : Int) : t.add n = ofNanos (t.toNanos + n) := by
  rw [Instant.add, ht]
  rfl

/-- An instant is moved if a clock can show where to. -/
theorem later?_eq (n : Int) :
    t.later? n = if Shown (t.toNanos + n) then some (ofNanos (t.toNanos + n)) else none := by
  rw [later?, add_eq ht]
  rfl

/-- The time between two instants is the difference of their nanoseconds. -/
theorem since_eq (hu : u.inLeapSecond = false) : t.since u = t.toNanos - u.toNanos := by
  simp only [since, ht, hu, Bool.false_eq_true, if_false, ite_self, toNanos, nanosPerSecond]
  omega

/-- What is left of a second is dropped, and the second stays. -/
theorem truncate_eq : t.truncate = ⟨t.seconds, 0⟩ := by
  have hmod : t.nanos % nanosPerSecond = t.nanos := Nat.mod_eq_of_lt (nanos_lt ht)
  rw [truncate, hmod]
  split
  · rename_i hzero
    rw [← hzero]
  · have hback : t.toNanos + -(t.nanos : Int) = t.seconds * nanosPerSecond := by
      rw [toNanos]
      omega
    rw [add_eq ht, hback, ofNanos_second]

/-- The second of an instant is the greatest whole one that is not later. -/
theorem isGreatest_seconds : IsGreatest {k : Int | k * nanosPerSecond ≤ t.toNanos} t.seconds := by
  have hlt := nanos_lt ht
  simp only [nanosPerSecond] at hlt
  refine ⟨?_, fun k hk => ?_⟩
  · show t.seconds * nanosPerSecond ≤ t.seconds * nanosPerSecond + t.nanos
    omega
  · have hk : k * nanosPerSecond ≤ t.seconds * nanosPerSecond + t.nanos := hk
    simp only [nanosPerSecond] at hk
    omega

end Outside

end Instant

namespace Schedule

open Instant (Shown)

/-! ## When a run starts and ends -/

/-- What a schedule says: it starts a delay after the greatest whole second that is not after now, and it ends at the
greatest whole second that is not after a length of time from there. -/
structure Exact (now : Instant) (delay total : Int) (s : Schedule) : Prop where
  whole : s.start.nanos = 0 ∧ s.finish.nanos = 0
  start : IsGreatest {k : Int | k * nanosPerSecond ≤ now.toNanos} (s.start.seconds - delay)
  finish : IsGreatest {k : Int | k * nanosPerSecond ≤ s.start.toNanos + total * nanosPerMilli} s.finish.seconds
  /-- The whole seconds in the total, towards the past where it is negative. -/
  length : s.total = total / 1000 * nanosPerSecond
  ordered : s.start.toNanos ≤ s.finish.toNanos ↔ 0 ≤ total

/-- A total in milliseconds has so many whole seconds. -/
theorem seconds_of_millis (k total : Int) :
    (Instant.ofNanos (k * nanosPerSecond + total * nanosPerMilli)).seconds = k + total / 1000 := by
  show (k * nanosPerSecond + total * nanosPerMilli) / nanosPerSecond = k + total / 1000
  simp only [nanosPerSecond, nanosPerMilli]
  omega

/-- The schedule with these whole seconds is the one that starts in the second of now. -/
theorem exact_of_seconds {now : Instant} (hleap : now.inLeapSecond = false) (delay total : Int) :
    Exact now delay total ⟨⟨now.seconds + delay, 0⟩, ⟨now.seconds + delay + total / 1000, 0⟩⟩ where
  whole := ⟨rfl, rfl⟩
  start := by
    dsimp only
    rw [Int.add_sub_cancel]
    exact now.isGreatest_seconds hleap
  finish := by
    have hend := Instant.isGreatest_seconds
      (Instant.inLeapSecond_ofNanos ((now.seconds + delay) * nanosPerSecond + total * nanosPerMilli))
    rw [Instant.toNanos_ofNanos, seconds_of_millis] at hend
    rw [Instant.toNanos_second]
    exact hend
  length := by
    rw [Schedule.total, Instant.since_eq rfl rfl, Instant.toNanos_second, Instant.toNanos_second, ← Int.sub_mul]
    congr 1
    omega
  ordered := by
    rw [Instant.toNanos_second, Instant.toNanos_second]
    simp only [nanosPerSecond]
    omega

/-- A delay between two instants of a clock is one by which an instant can be moved. -/
theorem delay_le_maxSeconds {now : Instant} {delay : Int} (hnow : now.inRange = true)
    (hstart : Shown ((now.seconds + delay) * nanosPerSecond)) : -maxSeconds ≤ delay ∧ delay ≤ maxSeconds := by
  have hfirst : Instant.firstSecond = -8334601228800 := by decide
  have hend : Instant.endSecond = 8210266876800 := by decide
  rw [Shown, Instant.ofNanos_second] at hstart
  simp only [Instant.inRange, Bool.and_eq_true, decide_eq_true_eq, hfirst, hend] at hnow hstart
  simp only [maxSeconds]
  omega

/-- The schedule of a run, if a clock can show its start and its end. -/
theorem plan?_eq {now : Instant} (hleap : now.inLeapSecond = false) (hnow : now.inRange = true) (delay total : Int) :
    plan? now delay total
      = if Shown ((now.seconds + delay) * nanosPerSecond)
          ∧ Shown ((now.seconds + delay) * nanosPerSecond + total * nanosPerMilli) then
        some ⟨⟨now.seconds + delay, 0⟩, ⟨now.seconds + delay + total / 1000, 0⟩⟩
      else none := by
  have hstart : now.truncate.later? (delay * nanosPerSecond)
      = if Shown ((now.seconds + delay) * nanosPerSecond) then some ⟨now.seconds + delay, 0⟩ else none := by
    rw [now.truncate_eq hleap, Instant.later?_eq rfl, Instant.toNanos_second, ← Int.add_mul, Instant.ofNanos_second]
  have hfinish : (⟨now.seconds + delay, 0⟩ : Instant).later? (total * nanosPerMilli)
      = if Shown ((now.seconds + delay) * nanosPerSecond + total * nanosPerMilli) then
        some (.ofNanos ((now.seconds + delay) * nanosPerSecond + total * nanosPerMilli)) else none := by
    rw [Instant.later?_eq rfl, Instant.toNanos_second]
  have hwhole := Instant.truncate_eq
    (Instant.inLeapSecond_ofNanos ((now.seconds + delay) * nanosPerSecond + total * nanosPerMilli))
  rw [seconds_of_millis] at hwhole
  unfold plan?
  rw [hstart]
  by_cases hfirst : Shown ((now.seconds + delay) * nanosPerSecond)
  · rw [if_pos (delay_le_maxSeconds hnow hfirst), if_pos hfirst]
    by_cases hlast : Shown ((now.seconds + delay) * nanosPerSecond + total * nanosPerMilli)
    · rw [if_pos ⟨hfirst, hlast⟩, ← hwhole]
      show (Instant.later? ⟨now.seconds + delay, 0⟩ (total * nanosPerMilli)).bind _ = _
      rw [hfinish, if_pos hlast]
      rfl
    · rw [if_neg fun h => hlast h.2]
      show (Instant.later? ⟨now.seconds + delay, 0⟩ (total * nanosPerMilli)).bind _ = _
      rw [hfinish, if_neg hlast]
      rfl
  · have hnot : ¬(Shown ((now.seconds + delay) * nanosPerSecond)
        ∧ Shown ((now.seconds + delay) * nanosPerSecond + total * nanosPerMilli)) := fun h => hfirst h.1
    rw [if_neg hfirst, if_neg hnot]
    exact ite_self _

/-! ## What is left -/

/-- What is left of a schedule is the time until its end, and nothing from there on. It does not grow as time passes,
and who sleeps that long does not wake up before the end. -/
structure Awaited (s : Schedule) : Prop where
  remaining : ∀ t : Instant, t.inLeapSecond = false →
    ((s.remaining t).nanos : Int) = max 0 (s.finish.toNanos - t.toNanos)
  past : ∀ t : Instant, t.inLeapSecond = false → s.finish.toNanos ≤ t.toNanos → s.remaining t = .zero
  shrinking : ∀ t u : Instant, t.inLeapSecond = false → u.inLeapSecond = false → t.toNanos ≤ u.toNanos →
    s.remaining u ≤ s.remaining t
  reached : ∀ t : Instant, t.inLeapSecond = false →
    s.finish.toNanos ≤ (t.add (s.remaining t).nanos).toNanos

/-- A schedule that does not end inside a leap second is waited for exactly. -/
theorem awaited {s : Schedule} (hs : s.finish.inLeapSecond = false) : Awaited s := by
  have hleft (t : Instant) (ht : t.inLeapSecond = false) :
      s.remaining t = ⟨(s.finish.toNanos - t.toNanos).toNat⟩ := by
    rw [Schedule.remaining, Instant.since_eq hs ht]
  refine ⟨fun t ht => ?remaining, fun t ht hpast => ?past, fun t u ht hu htu => ?shrinking, fun t ht => ?reached⟩
  case remaining =>
    rw [hleft t ht]
    dsimp only
    omega
  case past =>
    rw [hleft t ht, Int.toNat_of_nonpos (by omega)]
    rfl
  case shrinking =>
    rw [hleft t ht, hleft u hu]
    show (s.finish.toNanos - u.toNanos).toNat ≤ (s.finish.toNanos - t.toNanos).toNat
    omega
  case reached =>
    rw [Instant.add_eq ht, Instant.toNanos_ofNanos, hleft t ht]
    dsimp only
    omega

/-! ## The schedule of a run -/

/-- A delay that fits a signed word is taken as it is. -/
theorem toInt_startupDelay {delay : UInt64} (h : delay.toNat < 1 <<< 63) : delay.toInt64.toInt = delay.toNat := by
  refine BitVec.toInt_eq_toNat_of_lt ?_
  show 2 * delay.toNat < 18446744073709551616
  omega

/-- **A schedule is exact.** For a run that is planned outside of leap seconds, with a delay that fits a signed word,
there is a schedule exactly if a clock can show its start and its end. It starts the delay after the second of now and
ends at the whole second that its total reaches, towards the past on either side of 1970; and what is left of it is the
time until its end. -/
theorem schedule_is_exact (now : Instant) (p : BenchParams) (hleap : now.inLeapSecond = false)
    (hnow : now.inRange = true) (hdelay : p.startupDelay.toNat < 1 <<< 63) :
    ((∃ s, new? now p = some s)
        ↔ Shown ((now.seconds + p.startupDelay.toNat) * nanosPerSecond)
          ∧ Shown ((now.seconds + p.startupDelay.toNat) * nanosPerSecond + (totalMillis p).toInt * nanosPerMilli))
      ∧ ∀ s, new? now p = some s → Exact now p.startupDelay.toNat (totalMillis p).toInt s ∧ Awaited s := by
  rw [new?, toInt_startupDelay hdelay, plan?_eq hleap hnow, ← Option.isSome_iff_exists]
  refine ⟨?_, fun s hs => ?_⟩
  · rw [Option.isSome_ite]
  · obtain ⟨-, hsame⟩ := Option.ite_none_right_eq_some.mp hs
    cases hsame
    exact ⟨exact_of_seconds hleap _ _, awaited rfl⟩

/-- A run whose phases are set to take less than no time. -/
def backwards : BenchParams := { numNodes := 4, numRounds := 1, duration := -0.75 }

/-- Planned a quarter of a microsecond before 1970, that run starts a minute after the second before 1970, and its end
is three seconds earlier. -/
theorem schedule_is_exact_backwards :
    (Instant.ofNanos (-250)).inLeapSecond = false ∧ (Instant.ofNanos (-250)).inRange = true
      ∧ backwards.startupDelay.toNat < 1 <<< 63
      ∧ new? (.ofNanos (-250)) backwards = some ⟨⟨59, 0⟩, ⟨56, 0⟩⟩
      ∧ (totalMillis backwards).toInt = -2250
      ∧ Exact (.ofNanos (-250)) 60 (-2250) ⟨⟨59, 0⟩, ⟨56, 0⟩⟩ ∧ Awaited ⟨⟨59, 0⟩, ⟨56, 0⟩⟩ := by
  have hnew : new? (.ofNanos (-250)) backwards = some ⟨⟨59, 0⟩, ⟨56, 0⟩⟩ := by decide +kernel
  have htotal : (totalMillis backwards).toInt = -2250 := by decide +kernel
  have hexact := (schedule_is_exact (.ofNanos (-250)) backwards rfl (by decide) (by decide)).2 _ hnew
  rw [htotal] at hexact
  exact ⟨rfl, by decide, by decide, hnew, htotal, hexact⟩

/-! ## Delays that do not fit a signed word -/

/-- The seconds by which a run with this delay starts after the second of now. -/
def offset (delay : UInt64) : Int :=
  if delay.toNat < 1 <<< 63 then delay.toNat else delay.toNat - (1 <<< 64 : Nat)

/-- As a signed word, a delay that does not fit is as much less than it is as there are words. -/
theorem toInt_delay (delay : UInt64) : delay.toInt64.toInt = offset delay := by
  unfold offset
  split
  · rename_i hfits
    exact toInt_startupDelay hfits
  · rename_i hlong
    refine (BitVec.toInt_eq_toNat_cond delay.toBitVec).trans (if_neg fun hfits => hlong ?_)
    have hfits : 2 * delay.toNat < 18446744073709551616 := hfits
    show delay.toNat < 9223372036854775808
    omega

theorem offset_eq_iff (delay : UInt64) : offset delay = delay.toNat ↔ delay.toNat < 1 <<< 63 := by
  unfold offset
  split
  · simp_all
  · rename_i hlong
    refine ⟨fun h => ?_, fun hfits => absurd hfits hlong⟩
    have hwords : (1 <<< 64 : Nat) = 18446744073709551616 := rfl
    omega

/-- A delay that does not fit becomes negative. -/
theorem offset_nonneg_iff (delay : UInt64) : 0 ≤ offset delay ↔ delay.toNat < 1 <<< 63 := by
  unfold offset
  split
  · simp_all
  · rename_i hlong
    have hlt : delay.toNat < 1 <<< 64 := delay.toNat_lt
    refine ⟨fun h => ?_, fun hfits => absurd hfits hlong⟩
    omega

/-- **A run starts after its delay if that fits a signed word.** For a run that is planned outside of leap seconds,
with any delay, there is a schedule exactly if a clock can show its start and its end. The start is exactly the delay
after the second of now, or at least not before it, if and only if the delay fits a signed word; otherwise the run
starts in the past, `2 ^ 64` seconds before it should. -/
theorem starts_after_its_delay_iff (now : Instant) (p : BenchParams) (hleap : now.inLeapSecond = false)
    (hnow : now.inRange = true) :
    ((∃ s, new? now p = some s)
        ↔ Shown ((now.seconds + offset p.startupDelay) * nanosPerSecond)
          ∧ Shown ((now.seconds + offset p.startupDelay) * nanosPerSecond + (totalMillis p).toInt * nanosPerMilli))
      ∧ ∀ s, new? now p = some s →
        s.start.toNanos = now.truncate.toNanos + offset p.startupDelay * nanosPerSecond
          ∧ (s.start.toNanos = now.truncate.toNanos + p.startupDelay.toNat * nanosPerSecond
            ↔ p.startupDelay.toNat < 1 <<< 63)
          ∧ (now.truncate.toNanos ≤ s.start.toNanos ↔ p.startupDelay.toNat < 1 <<< 63) := by
  rw [new?, toInt_delay, plan?_eq hleap hnow, ← Option.isSome_iff_exists]
  refine ⟨by rw [Option.isSome_ite], fun s hs => ?_⟩
  obtain ⟨-, hsame⟩ := Option.ite_none_right_eq_some.mp hs
  have hstart : s.start.toNanos = now.truncate.toNanos + offset p.startupDelay * nanosPerSecond := by
    rw [← Option.some.inj hsame, now.truncate_eq hleap, Instant.toNanos_second, Instant.toNanos_second, ← Int.add_mul]
  refine ⟨hstart, ?_, ?_⟩
  · rw [← offset_eq_iff, hstart, Int.add_right_inj]
    exact Int.mul_eq_mul_right_iff (by decide)
  · rw [← offset_nonneg_iff, hstart]
    simp only [nanosPerSecond]
    omega

/-- A run with the greatest delay that there is. -/
def latest : BenchParams := { numNodes := 3, numRounds := 1, startupDelay := 18446744073709551615 }

/-- Planned three quarters into a second, it starts in the second before. -/
theorem starts_after_its_delay_iff_latest :
    (⟨1704103200, 750000000⟩ : Instant).inLeapSecond = false ∧ (⟨1704103200, 750000000⟩ : Instant).inRange = true
      ∧ new? ⟨1704103200, 750000000⟩ latest = some ⟨⟨1704103199, 0⟩, ⟨1704103205, 0⟩⟩
      ∧ (⟨1704103199, 0⟩ : Instant).toNanos
        = (⟨1704103200, 750000000⟩ : Instant).truncate.toNanos + offset latest.startupDelay * nanosPerSecond := by
  have hnew : new? ⟨1704103200, 750000000⟩ latest = some ⟨⟨1704103199, 0⟩, ⟨1704103205, 0⟩⟩ := by decide +kernel
  have hstart := ((starts_after_its_delay_iff ⟨1704103200, 750000000⟩ latest rfl (by decide)).2 _ hnew).1
  exact ⟨rfl, by decide, hnew, hstart⟩

/-- A run that should start long after now is planned for the second before it. -/
theorem a_long_delay_starts_in_the_past :
    ¬∀ (now : Instant) (p : BenchParams) (s : Schedule), now.inLeapSecond = false → new? now p = some s →
      s.start.toNanos = now.truncate.toNanos + p.startupDelay.toNat * nanosPerSecond
        ∧ now.truncate.toNanos ≤ s.start.toNanos := by
  intro h
  have hnew : new? ⟨1704103200, 750000000⟩ latest = some ⟨⟨1704103199, 0⟩, ⟨1704103205, 0⟩⟩ := by decide +kernel
  obtain ⟨-, hafter⟩ := h _ _ _ rfl hnew
  exact absurd hafter (by decide)

end Schedule

end CloudFleet
