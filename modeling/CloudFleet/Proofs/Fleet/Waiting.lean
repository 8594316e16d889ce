import CloudFleet.Proofs.Fleet.Describing
import CloudFleet.Proofs.Fleet.Preconditions
import Mathlib.Data.List.Basic

/-!
# Waiting stops at the first poll that is enough

A wait (`Wait`) is followed poll by poll: `Wait.after k` is the run after `k` polls, each of which rested and then
refreshed. The wait polls again as long as the condition does not hold, the time is not up and the refresh succeeds
(`Wait.Again`). So there are four ways in which it ends (`Wait.Exit`), and how it ends is decided by the first poll that
is not followed by another one (`run_pollUntil_eq_iff`).

What it announces on the way are the refreshes and the polls, each poll after its refresh (`ticks`).

Main statement, for every wait and every world: `polling_stops_at_the_first_match`.
-/

set_option autoImplicit false

namespace CloudFleet

variable {σ ε : Type}

/-- The event, if it tells how far waiting has come. -/
def Request.poll? : Request → Option Event
  | .announce (.pollTick n) => some (.pollTick n)
  | .announce (.converged n) => some (.converged n)
  | _ => none

namespace Fleet

/-! ## Polls in a history -/

/-- The polls that were announced, and how many there were once waiting ended. -/
def polls (h : List (Happening Fleet)) : List Event := (requests h).filterMap Request.poll?

theorem polls_append (h k : List (Happening Fleet)) : polls (h ++ k) = polls h ++ polls k := by
  simp [polls]

theorem polls_asked {r : Request} (hr : r.poll? = none) (reply : r.Reply) : polls [.asked r reply] = [] := by
  simp [polls, requests, exchanges, hr]

/-- A program that announces no poll adds none. -/
theorem polls_of_asks {α : Type} {p : Program Fleet ε α} (hp : p.Asks fun r => r.poll? = none) (w : World σ)
    (s : Run Fleet σ) : polls (p.run w s).2.history = polls s.history := by
  refine hp.keeps (I := fun t => polls t.history = polls s.history) (fun r t hr ht => ?_) (fun c t ht => ?_) s rfl
  · rw [Run.history_ask, polls_append, polls_asked hr, List.append_nil, ht]
  · rw [Run.history_change, polls_append, ht]
    exact List.append_nil _

/-! ## Refreshes announce no polls -/

theorem asks_unpolled {r : Request} (hr : r.poll? = none) :
    (Program.request r : Program Fleet ε r.Reply).Asks fun r => r.poll? = none := .request hr

theorem asks_describeGroups (groups : List Group) : (describeGroups groups).Asks fun r => r.poll? = none := by
  induction groups with
  | nil => exact .pure _
  | cons group groups ih =>
    have hdescribe : (Cloud.describe group.1 group.2 : FleetProgram _).Asks fun r => r.poll? = none := by
      refine (asks_unpolled (by rfl)).bind fun records => ?_
      cases records with
      | error e => exact .pure _
      | ok records =>
        refine (asks_unpolled (by rfl)).bind fun statuses => ?_
        cases statuses <;> exact .pure _
    refine hdescribe.bind fun described => ?_
    cases described with
    | error e => exact (asks_unpolled (by rfl)).bind fun _ => ih.bind fun _ => .pure _
    | ok described =>
      refine (Program.Asks.ofExcept _).bind fun observations => ?_
      refine (Program.Asks.each observations fun o => .bind .memory fun fleet => ?_).bind fun _ =>
        ih.bind fun _ => .pure _
      split
      · exact .remember _
      · exact (asks_unpolled (by rfl)).bind fun _ => .bind (.remember _) fun _ => .remember _

theorem asks_probeRunning (c : FleetConfig) (groups : List Group) :
    (probeRunning c groups : Program Fleet ε Unit).Asks fun r => r.poll? = none := by
  refine .bind .memory fun fleet => (Program.Asks.collect _ fun candidate _ => ?_).bind fun oks => ?_
  · refine (asks_unpolled (by rfl)).bind fun connection => ?_
    split
    · exact (asks_unpolled (by rfl)).bind fun _ => .pure _
    · exact .pure _
  · refine .each _ fun result => ?_
    split
    · exact .remember _
    · exact .pure _

theorem asks_settle (failures : List Failure) : (settle failures).Asks fun r => r.poll? = none := by
  unfold settle
  split
  · exact .pure _
  · exact .raise _

theorem asks_refresh (c : FleetConfig) (target : Target) : (refresh c target).Asks fun r => r.poll? = none := by
  refine .bind .memory fun fleet => (Program.Asks.ofExcept _).bind fun groups => ?_
  refine (asks_describeGroups groups).bind fun found => (asks_probeRunning c groups).bind fun _ => ?_
  exact (asks_unpolled (by rfl)).bind fun _ => asks_settle found.1

theorem polls_refresh (w : World σ) (c : FleetConfig) (target : Target) (s : Run Fleet σ) :
    polls ((refresh c target).run w s).2.history = polls s.history :=
  polls_of_asks (asks_refresh c target) w s

/-! ## Refreshes and polls in a history -/

/-- The event that announces a refresh of so many regions and instances. -/
def readAgain (numbers : Nat × Nat) : Event := .refreshed numbers.1 numbers.2

/-- The event, if it announces a refresh or tells how far waiting has come. -/
def tick? (r : Request) : Option Event := (r.refreshed?.map readAgain).or r.poll?

/-- The refreshes and the polls that were announced, and how many polls there were once waiting ended. -/
def ticks (h : List (Happening Fleet)) : List Event := (requests h).filterMap tick?

theorem ticks_append (h k : List (Happening Fleet)) : ticks (h ++ k) = ticks h ++ ticks k := by
  simp [ticks]

theorem ticks_asked {r : Request} (reply : r.Reply) : ticks [.asked r reply] = (tick? r).toList := by
  simp only [ticks, requests, exchanges, List.filterMap_cons, List.filterMap_nil, List.map_cons, List.map_nil]
  cases tick? r <;> rfl

/-- Where no poll is announced, only the refreshes are. -/
theorem ticks_of_unpolled {h : List (Happening Fleet)} (hnone : polls h = []) :
    ticks h = (refreshes h).map readAgain := by
  rw [refreshes, List.map_filterMap]
  refine List.filterMap_congr fun r hr => ?_
  rw [tick?, List.filterMap_eq_nil_iff.mp hnone r hr, Option.or_none]

/-- The end of waiting is announced among the ticks. -/
theorem mem_ticks_of_converged {h : List (Happening Fleet)} {n : Nat} (hm : .announce (.converged n) ∈ requests h) :
    .converged n ∈ ticks h := List.mem_filterMap.mpr ⟨_, hm, rfl⟩

/-- What is announced of polls that were followed by another one: the refresh, with its numbers, and then the poll. -/
def pollsTold (numbers : List (Nat × Nat)) : List Event :=
  numbers.zipIdx.flatMap fun x => [readAgain x.1, .pollTick (x.2 + 1)]

theorem pollsTold_concat (numbers : List (Nat × Nat)) (last : Nat × Nat) :
    pollsTold (numbers ++ [last]) = pollsTold numbers ++ [readAgain last, .pollTick (numbers.length + 1)] := by
  rw [pollsTold, List.zipIdx_append, List.flatMap_append]
  simp [pollsTold]

theorem converged_notMem_pollsTold (numbers : List (Nat × Nat)) (n : Nat) : .converged n ∉ pollsTold numbers := by
  simp [pollsTold, readAgain]

/-- What a refresh announces: itself at most, and exactly itself if it succeeds. -/
theorem ticks_refresh (w : World σ) (c : FleetConfig) (target : Target) (s : Run Fleet σ) :
    ∃ new numbers, ((refresh c target).run w s).2.history = s.history ++ new ∧ ticks new = numbers.map readAgain
      ∧ (((refresh c target).run w s).1 = .returned () → ∃ pair, numbers = [pair]) := by
  obtain ⟨new, hh, -⟩ := Program.run_history w (refresh c target) s
  have hnone : polls new = [] := by
    have hsame := polls_refresh w c target s
    rw [hh, polls_append] at hsame
    exact List.append_right_eq_self.mp hsame
  refine ⟨new, refreshes new, hh, ticks_of_unpolled hnone, fun hreturned => ?_⟩
  cases hgroups : groupsOf c s.own target with
  | error e =>
    rw [refresh_unresolved w c hgroups] at hreturned
    cases hreturned
  | ok groups =>
    rcases refreshed_or_halted w c s hgroups with ⟨attempts, connections, t, hrun, h⟩ | ⟨-, -, name, t, hrun, -⟩
    · have hannounced := h.refreshes_eq
      rw [hrun] at hh
      rw [show t.history = _ from hh, refreshes_append] at hannounced
      exact ⟨_, List.append_cancel_left hannounced⟩
    · rw [hrun] at hreturned
      cases hreturned

theorem Unresolved.ne_timeout {f : Fleet} {target : Target} {e : FleetError} (h : Unresolved f target e)
    (limit : Duration) : e ≠ .timeout limit := by
  cases h <;> nofun

/-- A refresh returns or fails, and it does not fail for want of time. -/
theorem run_refresh_ends (w : World σ) (c : FleetConfig) (target : Target) (s : Run Fleet σ) :
    ((refresh c target).run w s).1 = .returned ()
      ∨ ∃ e, ((refresh c target).run w s).1 = .failed e ∧ ∀ limit, e ≠ .timeout limit := by
  cases hgroups : groupsOf c s.own target with
  | error e =>
    rw [refresh_unresolved w c hgroups]
    exact .inr ⟨e, rfl, (resolve_eq_error_iff.mp (resolve_of_groupsOf hgroups)).ne_timeout⟩
  | ok groups =>
    rcases refreshed_or_halted w c s hgroups with ⟨attempts, connections, t, hrun, -⟩ | ⟨-, -, name, t, hrun, -⟩
    · rw [hrun]
      dsimp only
      split
      · exact .inl rfl
      · exact .inr ⟨_, rfl, nofun⟩
    · rw [hrun]
      exact .inr ⟨_, rfl, nofun⟩

/-- Waiting is over once the condition holds. -/
theorem run_pollFrom_of_done {w : World σ} {c : FleetConfig} {scope : Target} {limit : Option Duration}
    {done : Fleet → Bool} {start : Duration} {patience polled : Nat} {s : Run Fleet σ} (h : done s.own = true) :
    (pollFrom c scope limit done start patience polled).run w s
      = (.returned polled, s.ask w (.announce (.converged polled))) := by
  cases patience <;>
  · rw [pollFrom, Program.run_andThen_of_returned (Program.run_memory w s), if_pos h]
    rfl

/-! ## A wait, poll by poll -/

/-- A wait for a condition on the fleet: what is refreshed meanwhile, for how long, and from which run on. -/
structure Wait (σ : Type) where
  world : World σ
  config : FleetConfig
  scope : Target
  limit : Option Duration
  done : Fleet → Bool
  start : Run Fleet σ

namespace Wait

variable (x : Wait σ)

/-- The run after it was looked whether the time is up; without a limit nobody looks. -/
def clocked (r : Run Fleet σ) : Run Fleet σ :=
  match x.limit with
  | none => r
  | some _ => r.ask x.world .stopwatch

/-- The run after the rest before a refresh. -/
def rested (r : Run Fleet σ) : Run Fleet σ := (x.clocked r).ask x.world (.sleep x.config.refreshInterval)

/-- The refresh that follows a run. -/
def refreshing (r : Run Fleet σ) : Ending FleetError Unit × Run Fleet σ :=
  (refresh x.config x.scope).run x.world (x.rested r)

/-- The run after so many polls. -/
def after : Nat → Run Fleet σ
  | 0 => x.start.ask x.world .stopwatch
  | k + 1 => (x.refreshing (after k)).2.ask x.world (.announce (.pollTick (k + 1)))

/-- The time that has passed after so many polls. -/
def elapsed (k : Nat) : Duration :=
  Duration.sub ((x.after k).reply x.world .stopwatch) (x.start.reply x.world .stopwatch)

/-- Whether the condition holds after so many polls. -/
def holds (k : Nat) : Bool := x.done (x.after k).own

/-- After so many polls the time is not up. -/
def InTime (k : Nat) : Prop := ∀ limit, x.limit = some limit → x.elapsed k < limit

/-- The refresh after so many polls succeeds. -/
def Succeeds (k : Nat) : Prop := (x.refreshing (x.after k)).1 = .returned ()

/-- After so many polls there is another one. -/
structure Again (k : Nat) : Prop where
  waits : x.holds k = false
  inTime : x.InTime k
  succeeds : x.Succeeds k

/-- How a wait with a given patience ends, when the polls before its end were each followed by another one. -/
inductive Exit (patience : Nat) : Ending FleetError Nat × Run Fleet σ → Prop
  | converged {n : Nat} (hn : n ≤ patience) (hagain : ∀ k < n, x.Again k) (hholds : x.holds n = true) :
    Exit patience (.returned n, (x.after n).ask x.world (.announce (.converged n)))
  | overdue {n : Nat} {limit : Duration} (hn : n ≤ patience) (hagain : ∀ k < n, x.Again k) (hwaits : x.holds n = false)
    (hlimit : x.limit = some limit) (hpassed : limit ≤ x.elapsed n) :
    Exit patience (.failed (.timeout limit), (x.after n).ask x.world .stopwatch)
  | failed {n : Nat} {e : FleetError} {t : Run Fleet σ} (hn : n < patience) (hagain : ∀ k < n, x.Again k)
    (hwaits : x.holds n = false) (hin : x.InTime n) (hrun : x.refreshing (x.after n) = (.failed e, t)) :
    Exit patience (.failed e, t)
  | impatient (hagain : ∀ k < patience, x.Again k) (hwaits : x.holds patience = false) (hin : x.InTime patience) :
    Exit patience (.stalled, x.clocked (x.after patience))

/-- The rest of the wait after so many polls. -/
def rest (patience polls : Nat) : FleetProgram Nat :=
  pollFrom x.config x.scope x.limit x.done (x.start.reply x.world .stopwatch) patience polls

section Runs

variable {x} {k n patience : Nat}

theorem run_checkDeadline_of_inTime (h : x.InTime k) :
    (checkDeadline x.limit (x.start.reply x.world .stopwatch)).run x.world (x.after k)
      = (.returned (), x.clocked (x.after k)) := by
  unfold checkDeadline clocked
  cases hlimit : x.limit with
  | none => rfl
  | some limit =>
    have hnot : ¬limit ≤ x.elapsed k := Nat.not_le_of_lt (h limit hlimit)
    dsimp only
    rw [Program.run_andThen_of_returned (Program.run_request x.world _ _)]
    exact congrArg (fun p : FleetProgram Unit => p.run x.world _) (if_neg hnot)

theorem run_checkDeadline_of_passed {limit : Duration} (hlimit : x.limit = some limit) (h : limit ≤ x.elapsed k) :
    (checkDeadline x.limit (x.start.reply x.world .stopwatch)).run x.world (x.after k)
      = (.failed (.timeout limit), (x.after k).ask x.world .stopwatch) := by
  rw [hlimit, checkDeadline, Program.run_andThen_of_returned (Program.run_request x.world _ _)]
  exact congrArg (fun p : FleetProgram Unit => p.run x.world _) (if_pos h)

theorem run_rest_of_holds (h : x.holds n = true) (patience : Nat) :
    (x.rest patience n).run x.world (x.after n)
      = (.returned n, (x.after n).ask x.world (.announce (.converged n))) := run_pollFrom_of_done h

/-- The time is up, or the refresh comes next. -/
theorem run_rest_of_passed {limit : Duration} (hwaits : x.holds n = false) (hlimit : x.limit = some limit)
    (hpassed : limit ≤ x.elapsed n) (patience : Nat) :
    (x.rest patience n).run x.world (x.after n)
      = (.failed (.timeout limit), (x.after n).ask x.world .stopwatch) := by
  have hnot : ¬x.done (x.after n).own = true := ne_true_of_eq_false hwaits
  have hchecked := run_checkDeadline_of_passed hlimit hpassed
  cases patience <;>
  · rw [rest, pollFrom, Program.run_andThen_of_returned (Program.run_memory x.world _), if_neg hnot]
    exact Program.run_andThen_of_failed hchecked _

/-- Without patience nothing is refreshed any more. -/
theorem run_rest_zero (hwaits : x.holds n = false) (hin : x.InTime n) :
    (x.rest 0 n).run x.world (x.after n) = (.stalled, x.clocked (x.after n)) := by
  have hnot : ¬x.done (x.after n).own = true := ne_true_of_eq_false hwaits
  rw [rest, pollFrom, Program.run_andThen_of_returned (Program.run_memory x.world _), if_neg hnot,
    Program.run_andThen_of_returned (run_checkDeadline_of_inTime hin)]
  rfl

/-- The refresh of another poll, and what follows. -/
theorem run_rest_succ (hwaits : x.holds n = false) (hin : x.InTime n) (patience : Nat) :
    (x.rest (patience + 1) n).run x.world (x.after n) = (refresh x.config x.scope >>= fun _ => do
      let _ ← Program.request (.announce (.pollTick (n + 1)))
      x.rest patience (n + 1) : FleetProgram Nat).run x.world (x.rested (x.after n)) := by
  have hnot : ¬x.done (x.after n).own = true := ne_true_of_eq_false hwaits
  rw [rest, pollFrom, Program.run_andThen_of_returned (Program.run_memory x.world _), if_neg hnot,
    Program.run_andThen_of_returned (run_checkDeadline_of_inTime hin),
    Program.run_andThen_of_returned (Program.run_request x.world _ _)]
  rfl

theorem run_rest_of_failed {e : FleetError} {t : Run Fleet σ} (hwaits : x.holds n = false) (hin : x.InTime n)
    (hrun : x.refreshing (x.after n) = (.failed e, t)) (patience : Nat) :
    (x.rest (patience + 1) n).run x.world (x.after n) = (.failed e, t) := by
  rw [run_rest_succ hwaits hin]
  exact Program.run_andThen_of_failed hrun _

theorem run_rest_of_again (h : x.Again n) (patience : Nat) :
    (x.rest (patience + 1) n).run x.world (x.after n) = (x.rest patience (n + 1)).run x.world (x.after (n + 1)) := by
  have hreturned : x.refreshing (x.after n) = (.returned (), (x.refreshing (x.after n)).2) := Prod.ext h.succeeds rfl
  rw [run_rest_succ h.waits h.inTime, Program.run_andThen_of_returned hreturned,
    Program.run_andThen_of_returned (Program.run_request x.world _ _)]
  rfl

/-- As long as there is another poll, the wait goes on from it. -/
theorem run_rest_of_all_again (hagain : ∀ k < n, x.Again k) (patience : Nat) :
    (x.rest (patience + n) 0).run x.world (x.after 0) = (x.rest patience n).run x.world (x.after n) := by
  induction n generalizing patience with
  | zero => rfl
  | succ n ih =>
    have hfirst : ∀ k < n, x.Again k := fun k hk => hagain k (Nat.lt_succ_of_lt hk)
    have hlast : x.Again n := hagain n (Nat.lt_succ_self n)
    calc (x.rest (patience + (n + 1)) 0).run x.world (x.after 0)
        = (x.rest (patience + 1 + n) 0).run x.world (x.after 0) := by rw [Nat.add_right_comm]; rfl
      _ = (x.rest (patience + 1) n).run x.world (x.after n) := ih hfirst (patience + 1)
      _ = (x.rest patience (n + 1)).run x.world (x.after (n + 1)) := run_rest_of_again hlast patience

theorem run_pollUntil_eq (patience : Nat) :
    (pollUntil x.config patience x.scope x.limit x.done).run x.world x.start
      = (x.rest patience 0).run x.world (x.after 0) := by
  rw [pollUntil, Program.run_andThen_of_returned (Program.run_request x.world _ x.start)]
  rfl

/-- A wait ends as the first poll says that is not followed by another one. -/
theorem Exit.run_eq {outcome : Ending FleetError Nat × Run Fleet σ} (h : x.Exit patience outcome) :
    (pollUntil x.config patience x.scope x.limit x.done).run x.world x.start = outcome := by
  rw [run_pollUntil_eq]
  cases h with
  | converged hn hagain hholds =>
    obtain ⟨left, rfl⟩ := Nat.exists_eq_add_of_le' hn
    rw [run_rest_of_all_again hagain]
    exact run_rest_of_holds hholds left
  | overdue hn hagain hwaits hlimit hpassed =>
    obtain ⟨left, rfl⟩ := Nat.exists_eq_add_of_le' hn
    rw [run_rest_of_all_again hagain]
    exact run_rest_of_passed hwaits hlimit hpassed left
  | @failed n e t hn hagain hwaits hin hrun =>
    obtain ⟨left, rfl⟩ := Nat.exists_eq_add_of_le' (Nat.succ_le_of_lt hn)
    have hsum : left + n.succ = left + 1 + n := by omega
    rw [hsum, run_rest_of_all_again hagain]
    exact run_rest_of_failed hwaits hin hrun left
  | impatient hagain hwaits hin =>
    rw [← Nat.zero_add patience, run_rest_of_all_again hagain, Nat.zero_add]
    exact run_rest_zero hwaits hin

/-- The polls that are followed by another one come to an end: before the patience does, or with it. -/
theorem all_again_or (x : Wait σ) (patience : Nat) :
    (∀ k < patience, x.Again k) ∨ ∃ n < patience, (∀ k < n, x.Again k) ∧ ¬x.Again n := by
  induction patience with
  | zero => exact .inl fun k hk => absurd hk (Nat.not_lt_zero k)
  | succ patience ih =>
    rcases ih with hall | ⟨n, hn, hagain, hlast⟩
    · by_cases hlast : x.Again patience
      · exact .inl (Nat.forall_lt_succ_right.mpr ⟨hall, hlast⟩)
      · exact .inr ⟨patience, Nat.lt_succ_self patience, hall, hlast⟩
    · exact .inr ⟨n, Nat.lt_succ_of_lt hn, hagain, hlast⟩

/-- After polls that were followed by another one the condition holds, or the time is up, or it goes on. -/
theorem holds_or_passed_or (x : Wait σ) (n : Nat) :
    x.holds n = true ∨ (x.holds n = false ∧ ∃ limit, x.limit = some limit ∧ limit ≤ x.elapsed n)
      ∨ (x.holds n = false ∧ x.InTime n) := by
  cases hholds : x.holds n with
  | true => exact .inl rfl
  | false =>
    right
    by_cases hpassed : ∃ limit, x.limit = some limit ∧ limit ≤ x.elapsed n
    · exact .inl ⟨rfl, hpassed⟩
    · exact .inr ⟨rfl, fun limit hlimit => Nat.lt_of_not_le fun hle => hpassed ⟨limit, hlimit, hle⟩⟩

/-- Where the next refresh succeeds, a wait that is not over times out, or goes on. -/
theorem timeout_or_again (hn : n ≤ patience) (hagain : ∀ k < n, x.Again k) (hwaits : x.holds n = false)
    (hsucceeds : x.Succeeds n) :
    (∃ limit t, (pollUntil x.config patience x.scope x.limit x.done).run x.world x.start
        = (.failed (.timeout limit), t))
      ∨ ∀ k < n + 1, x.Again k := by
  rcases holds_or_passed_or x n with hholds | ⟨-, limit, hlimit, hpassed⟩ | ⟨-, hin⟩
  · rw [hholds] at hwaits
    cases hwaits
  · exact .inl ⟨limit, _, (Exit.overdue hn hagain hwaits hlimit hpassed).run_eq⟩
  · exact .inr (Nat.forall_lt_succ_right.mpr ⟨hagain, hwaits, hin, hsucceeds⟩)

/-- There is always one of the four ends. -/
theorem exists_exit (x : Wait σ) (patience : Nat) : ∃ outcome, x.Exit patience outcome := by
  rcases all_again_or x patience with hagain | ⟨n, hn, hagain, hlast⟩
  · rcases holds_or_passed_or x patience with hholds | ⟨hwaits, limit, hlimit, hpassed⟩ | ⟨hwaits, hin⟩
    · exact ⟨_, .converged (Nat.le_refl patience) hagain hholds⟩
    · exact ⟨_, .overdue (Nat.le_refl patience) hagain hwaits hlimit hpassed⟩
    · exact ⟨_, .impatient hagain hwaits hin⟩
  · rcases holds_or_passed_or x n with hholds | ⟨hwaits, limit, hlimit, hpassed⟩ | ⟨hwaits, hin⟩
    · exact ⟨_, .converged (Nat.le_of_lt hn) hagain hholds⟩
    · exact ⟨_, .overdue (Nat.le_of_lt hn) hagain hwaits hlimit hpassed⟩
    · rcases run_refresh_ends x.world x.config x.scope (x.rested (x.after n)) with hsucceeds | ⟨e, hfailed, -⟩
      · exact absurd ⟨hwaits, hin, hsucceeds⟩ hlast
      · exact ⟨_, .failed hn hagain hwaits hin (Prod.ext hfailed rfl)⟩

theorem run_pollUntil_eq_iff {outcome : Ending FleetError Nat × Run Fleet σ} :
    (pollUntil x.config patience x.scope x.limit x.done).run x.world x.start = outcome ↔ x.Exit patience outcome := by
  constructor
  · rintro rfl
    obtain ⟨outcome, h⟩ := exists_exit x patience
    rw [h.run_eq]
    exact h
  · exact Exit.run_eq

/-! ## What is announced -/

theorem history_clocked (r : Run Fleet σ) :
    ∃ new, (x.clocked r).history = r.history ++ new ∧ ticks new = [] := by
  unfold clocked
  cases x.limit with
  | none => exact ⟨[], (List.append_nil _).symm, rfl⟩
  | some limit => exact ⟨_, rfl, ticks_asked _⟩

/-- The refresh of a poll announces itself if it succeeds, and nothing else. -/
theorem history_refreshing (r : Run Fleet σ) :
    ∃ new numbers, (x.refreshing r).2.history = r.history ++ new ∧ ticks new = numbers.map readAgain
      ∧ ((x.refreshing r).1 = .returned () → ∃ pair, numbers = [pair]) := by
  obtain ⟨looked, hlooked, hquiet⟩ := history_clocked (x := x) r
  obtain ⟨new, numbers, hh, hticks, hone⟩ := ticks_refresh x.world x.config x.scope (x.rested r)
  refine ⟨looked ++ [.asked (.sleep x.config.refreshInterval) ()] ++ new, numbers, ?_, ?_, hone⟩
  · rw [refreshing, hh, rested, Run.history_ask, hlooked]
    simp
  · rw [ticks_append, ticks_append, hquiet, ticks_asked, hticks]
    rfl

/-- Polls that were each followed by another one announced their refreshes and themselves. -/
theorem history_after (hagain : ∀ k < n, x.Again k) :
    ∃ new numbers, (x.after n).history = x.start.history ++ new ∧ numbers.length = n
      ∧ ticks new = pollsTold numbers := by
  induction n with
  | zero => exact ⟨_, [], rfl, rfl, ticks_asked _⟩
  | succ n ih =>
    obtain ⟨new, numbers, hh, rfl, hticks⟩ := ih fun k hk => hagain k (Nat.lt_succ_of_lt hk)
    obtain ⟨more, refreshed, hmore, htold, hone⟩ := history_refreshing (x := x) (x.after numbers.length)
    obtain ⟨pair, rfl⟩ := hone (hagain _ (Nat.lt_succ_self _)).succeeds
    refine ⟨new ++ more ++ [.asked (.announce (.pollTick (numbers.length + 1))) ()], numbers ++ [pair], ?_, by simp, ?_⟩
    · rw [after, Run.history_ask, hmore, hh]
      simp
    · rw [ticks_append, ticks_append, hticks, htold, ticks_asked, pollsTold_concat]
      simp [tick?, Request.poll?, Request.refreshed?]

/-- A wait that returns announced its polls, each after its refresh, and last that it is over. -/
theorem Exit.told {t : Run Fleet σ} (h : x.Exit patience (.returned n, t)) :
    ∃ new numbers, t.history = x.start.history ++ new ∧ numbers.length = n
      ∧ ticks new = pollsTold numbers ++ [.converged n] := by
  rcases h with ⟨hn, hagain, hholds⟩
  obtain ⟨new, numbers, hh, hlength, hticks⟩ := history_after hagain
  refine ⟨new ++ [.asked (.announce (.converged n)) ()], numbers, ?_, hlength, ?_⟩
  · rw [Run.history_ask, hh, List.append_assoc]
  · rw [ticks_append, hticks, ticks_asked]
    rfl

/-- After polls that were each followed by another one, and then refreshes at most, the end of waiting has not been
announced. -/
theorem not_converged_after (hagain : ∀ k < n, x.Again k) {more : List (Happening Fleet)}
    (refreshed : List (Nat × Nat)) {t : Run Fleet σ} (hh : t.history = (x.after n).history ++ more)
    (hmore : ticks more = refreshed.map readAgain) :
    ∃ new, t.history = x.start.history ++ new ∧ ∀ m, .announce (.converged m) ∉ requests new := by
  obtain ⟨new, numbers, hafter, -, hticks⟩ := history_after hagain
  refine ⟨new ++ more, by rw [hh, hafter, List.append_assoc], fun m hm => ?_⟩
  have hconverged := mem_ticks_of_converged hm
  rw [ticks_append, hticks, hmore] at hconverged
  rcases List.mem_append.mp hconverged with hin | hin
  · exact converged_notMem_pollsTold numbers m hin
  · simp [readAgain] at hin

/-- A wait that fails never announces its end. -/
theorem Exit.not_converged {e : FleetError} {t : Run Fleet σ} (h : x.Exit patience (.failed e, t)) :
    ∃ new, t.history = x.start.history ++ new ∧ ∀ m, .announce (.converged m) ∉ requests new := by
  cases h with
  | overdue hn hagain hwaits hlimit hpassed => exact not_converged_after hagain [] rfl (ticks_asked _)
  | @failed n _ _ hn hagain hwaits hin hrun =>
    obtain ⟨more, refreshed, hh, hmore, -⟩ := history_refreshing (x := x) (x.after n)
    rw [hrun] at hh
    exact not_converged_after hagain refreshed hh hmore

/-! ## The ends apart -/

theorem exit_returned_iff {t : Run Fleet σ} :
    x.Exit patience (.returned n, t) ↔ n ≤ patience ∧ x.holds n = true ∧ (∀ k < n, x.holds k = false)
      ∧ (∀ k < n, x.InTime k ∧ x.Succeeds k) ∧ t = (x.after n).ask x.world (.announce (.converged n)) := by
  constructor
  · rintro ⟨hn, hagain, hholds⟩
    exact ⟨hn, hholds, fun k hk => (hagain k hk).waits,
      fun k hk => ⟨(hagain k hk).inTime, (hagain k hk).succeeds⟩, rfl⟩
  · rintro ⟨hn, hholds, hwaits, hgoes, rfl⟩
    exact .converged hn (fun k hk => ⟨hwaits k hk, (hgoes k hk).1, (hgoes k hk).2⟩) hholds

/-- A refresh does not time out. -/
theorem refreshing_ne_timeout (r t : Run Fleet σ) (limit : Duration) :
    x.refreshing r ≠ (.failed (.timeout limit), t) := by
  intro hrun
  have hfailed : ((refresh x.config x.scope).run x.world (x.rested r)).1 = .failed (.timeout limit) :=
    congrArg Prod.fst hrun
  rcases run_refresh_ends x.world x.config x.scope (x.rested r) with hends | ⟨e, hends, hnot⟩
  · rw [hends] at hfailed
    cases hfailed
  · rw [hends] at hfailed
    cases hfailed
    exact hnot limit rfl

theorem exit_timeout_iff {limit : Duration} {t : Run Fleet σ} :
    x.Exit patience (.failed (.timeout limit), t) ↔ ∃ n ≤ patience, (∀ k < n, x.Again k) ∧ x.holds n = false
      ∧ x.limit = some limit ∧ limit ≤ x.elapsed n ∧ t = (x.after n).ask x.world .stopwatch := by
  constructor
  · intro h
    cases h with
    | @overdue n _ hn hagain hwaits hlimit hpassed => exact ⟨n, hn, hagain, hwaits, hlimit, hpassed, rfl⟩
    | failed hn hagain hwaits hin hrun => exact absurd hrun (refreshing_ne_timeout _ _ _)
  · rintro ⟨n, hn, hagain, hwaits, hlimit, hpassed, rfl⟩
    exact .overdue hn hagain hwaits hlimit hpassed

theorem exit_failed_iff {e : FleetError} (he : ∀ limit, e ≠ .timeout limit) {t : Run Fleet σ} :
    x.Exit patience (.failed e, t) ↔ ∃ n < patience, (∀ k < n, x.Again k) ∧ x.holds n = false ∧ x.InTime n
      ∧ x.refreshing (x.after n) = (.failed e, t) := by
  constructor
  · intro h
    cases h with
    | overdue => exact absurd rfl (he _)
    | @failed n _ _ hn hagain hwaits hin hrun => exact ⟨n, hn, hagain, hwaits, hin, hrun⟩
  · rintro ⟨n, hn, hagain, hwaits, hin, hrun⟩
    exact .failed hn hagain hwaits hin hrun

end Runs

end Wait

/-- For every wait, and whatever is answered: it returns `n` exactly if after `n` polls, and after no fewer, the
condition holds, and before each of them the time was not up and the refresh succeeded; it then announced these polls,
each after its refresh, and last that waiting ended. It times out exactly if after polls of which each was followed by
another one the condition does not hold and the time is up; any other error is that of the refresh that comes next; and
neither announces the end of waiting. -/
theorem polling_stops_at_the_first_match (x : Wait σ) (patience : Nat) :
    let outcome := (pollUntil x.config patience x.scope x.limit x.done).run x.world x.start
    (∀ n t, outcome = (.returned n, t) ↔ n ≤ patience ∧ x.holds n = true ∧ (∀ k < n, x.holds k = false)
      ∧ (∀ k < n, x.InTime k ∧ x.Succeeds k) ∧ t = (x.after n).ask x.world (.announce (.converged n)))
    ∧ (∀ n t, outcome = (.returned n, t) → ∃ new numbers, t.history = x.start.history ++ new ∧ numbers.length = n
      ∧ ticks new = pollsTold numbers ++ [.converged n])
    ∧ (∀ limit t, outcome = (.failed (.timeout limit), t) ↔ ∃ n ≤ patience, (∀ k < n, x.Again k) ∧ x.holds n = false
      ∧ x.limit = some limit ∧ limit ≤ x.elapsed n ∧ t = (x.after n).ask x.world .stopwatch)
    ∧ (∀ e t, (∀ limit, e ≠ .timeout limit) → (outcome = (.failed e, t) ↔ ∃ n < patience, (∀ k < n, x.Again k)
      ∧ x.holds n = false ∧ x.InTime n ∧ x.refreshing (x.after n) = (.failed e, t)))
    ∧ (∀ e t, outcome = (.failed e, t) →
      ∃ new, t.history = x.start.history ++ new ∧ ∀ m, .announce (.converged m) ∉ requests new)
    ∧ outcome.1 ≠ .crashed
    ∧ ∀ t, outcome = (.stalled, t) → (∀ k < patience, x.Again k) ∧ x.holds patience = false ∧ x.InTime patience := by
  intro outcome
  have hexit {outcome' : Ending FleetError Nat × Run Fleet σ} : outcome = outcome' ↔ x.Exit patience outcome' :=
    Wait.run_pollUntil_eq_iff
  refine ⟨fun n t => ?returned, fun n t hrun => ?told, fun limit t => ?timeout, fun e t he => ?failed,
    fun e t hrun => ?silent, ?total, fun t hrun => ?stalled⟩
  case returned => exact hexit.trans Wait.exit_returned_iff
  case told => exact (hexit.mp hrun).told
  case timeout => exact hexit.trans Wait.exit_timeout_iff
  case failed => exact hexit.trans (Wait.exit_failed_iff he)
  case silent => exact (hexit.mp hrun).not_converged
  case total =>
    intro hcrashed
    have h : x.Exit patience (.crashed, outcome.2) := hexit.mp (Prod.ext hcrashed rfl)
    cases h
  case stalled =>
    rcases hexit.mp hrun with ⟨⟩ | ⟨⟩ | ⟨⟩ | ⟨hagain, hwaits, hin⟩
    exact ⟨hagain, hwaits, hin⟩

end Fleet

end CloudFleet
