import CloudFleet.Proofs.Remote.Course
import CloudFleet.World.Inert

/-!
# What comes of a command on all hosts

A command is called once on every bound host, in order, and each host has one outcome, made of what its own call ended
with and of nothing else (`Reports`). How the run ends depends on these outcomes and on the options alone
(`Concluded`): it fails for the first host that was not reached if it must, then for a command that failed anywhere if
it must, and otherwise returns all outcomes (`Session.run_fanOut`, `Session.run_aggregates_outcomes`).
-/

set_option autoImplicit false

namespace CloudFleet.Session

variable {σ : Type}

/-! ## The outcome of one host -/

/-- The outcome of a call that ended in time is what it ended with; the outcome of any other is that it timed out. -/
inductive Reports (s : Session) (limit : Option Duration) (host : String) : ExecReply → Outcome → Prop
  | ran {delay : Duration} {out : Output} (intime : ∀ l ∈ limit, delay ≤ l) :
    Reports s limit host (.after delay (.ok out)) ⟨host, s.id? host, out.exitCode, out.stdout, out.stderr, none⟩
  | broke {delay : Duration} {e : TransportError} (intime : ∀ l ∈ limit, delay ≤ l) :
    Reports s limit host (.after delay (.error e)) ⟨host, s.id? host, none, "", "", some e⟩
  | late {delay l : Duration} {answer : Except TransportError Output} (allowed : limit = some l)
    (late : ¬delay ≤ l) :
    Reports s limit host (.after delay answer) ⟨host, s.id? host, none, "", "", some (.timeout l)⟩
  | hung {l : Duration} (allowed : limit = some l) :
    Reports s limit host .never ⟨host, s.id? host, none, "", "", some (.timeout l)⟩

/-- What is kept of a call that was waited for is the outcome of its host. -/
theorem reports_of_limited {s : Session} {limit : Option Duration} {host : String} {reply : ExecReply}
    {delay : Duration} {answer : Except TransportError Output} (h : limited limit reply = .after delay answer) :
    Reports s limit host reply (outcomeOf s host answer) := by
  cases reply with
  | never =>
    cases limit with
    | none => cases h
    | some l =>
      cases h
      exact .hung rfl
  | after waited given =>
    have hgiven (hin : ∀ l ∈ limit, waited ≤ l) :
        Reports s limit host (.after waited given) (outcomeOf s host given) := by
      cases given with
      | ok out => exact .ran hin
      | error e => exact .broke hin
    cases limit with
    | none =>
      cases h
      exact hgiven nofun
    | some l =>
      rw [limited] at h
      split at h
      · rename_i hle
        cases h
        exact hgiven fun l' hl' => Option.some.inj hl' ▸ hle
      · rename_i hlate
        cases h
        exact .late rfl hlate

theorem Reports.host_eq {s : Session} {limit : Option Duration} {host : String} {reply : ExecReply} {o : Outcome}
    (h : Reports s limit host reply o) : o.host = host ∧ o.id = s.id? host := by
  cases h <;> exact ⟨rfl, rfl⟩

/-- A call never ends for those who wait if it does not and there is no limit. -/
theorem limited_eq_never_iff {α : Type} {limit : Option Duration} {reply : Completion (Except TransportError α)} :
    limited limit reply = .never ↔ limit = none ∧ reply = .never := by
  cases reply with
  | never => cases limit <;> simp [limited]
  | after delay answer =>
    cases limit with
    | none => simp [limited]
    | some l =>
      rw [limited]
      split <;> simp

/-- What each host reports, in order. -/
theorem reports_of_gathered {s : Session} {limit : Option Duration} {hosts : List String} {replies : List ExecReply}
    {answers : List (Except TransportError Output)}
    (h : List.Forall₂ (fun e v => ∃ delay, e = .after delay v) (replies.map (limited limit)) answers) :
    List.Forall₂ (fun call o => Reports s limit call.1 call.2 o) (hosts.zip replies)
      ((hosts.zip answers).map fun x => outcomeOf s x.1 x.2) := by
  induction replies generalizing hosts answers with
  | nil =>
    cases h
    simp
  | cons reply replies ih =>
    cases h with
    | cons hreply hrest =>
      obtain ⟨delay, hreply⟩ := hreply
      cases hosts with
      | nil => exact .nil
      | cons host hosts => exact .cons (reports_of_limited hreply) (ih hrest)

/-! ## The end of a fan-out -/

/-- The first host that was not reached, with why. -/
def FirstBroken (outcomes : List Outcome) (host : String) (e : TransportError) : Prop :=
  ∃ before o after, outcomes = before ++ o :: after ∧ (∀ b ∈ before, b.error = none) ∧ o.host = host
    ∧ o.error = some e

/-- The run must fail for a host that was not reached. -/
def Stopped (options : RunOptions) (outcomes : List Outcome) : Prop :=
  options.stopOnErrors = true ∧ ∃ o ∈ outcomes, o.error ≠ none

/-- The run must fail for a host where the command did not end with code 0. -/
def Raised (options : RunOptions) (outcomes : List Outcome) : Prop :=
  options.raiseOnFailure = true ∧ ∃ o ∈ outcomes, ¬(o.error = none ∧ o.exitCode = some 0)

/-- How a command ends that has these outcomes. -/
structure Concluded (options : RunOptions) (command : String) (outcomes : List Outcome)
    (ending : Ending RemoteError RunResult) : Prop where
  transport : ∀ host e, ending = .failed (.transport host e)
    ↔ options.stopOnErrors = true ∧ FirstBroken outcomes host e
  commandFailed : ∀ failed all, ending = .failed (.commandFailed failed all)
    ↔ (failed = command ∧ all = outcomes) ∧ ¬Stopped options outcomes ∧ Raised options outcomes
  returned : ∀ result, ending = .returned result
    ↔ result = ⟨command, outcomes⟩ ∧ ¬Stopped options outcomes ∧ ¬Raised options outcomes

theorem firstBroken_iff {outcomes : List Outcome} {host : String} {e : TransportError} :
    FirstBroken outcomes host e
      ↔ outcomes.findSome? (fun o => o.error.map fun e => (o.host, e)) = some (host, e) := by
  rw [List.findSome?_eq_some_iff]
  constructor
  · rintro ⟨before, o, after, rfl, hbefore, rfl, he⟩
    exact ⟨before, o, after, rfl, by rw [he]; rfl, fun b hb => by rw [hbefore b hb]; rfl⟩
  · rintro ⟨before, o, after, rfl, ho, hbefore⟩
    obtain ⟨e', he, heq⟩ := Option.map_eq_some_iff.mp ho
    cases heq
    exact ⟨before, o, after, rfl, fun b hb => Option.map_eq_none_iff.mp (hbefore b hb), rfl, he⟩

theorem isSuccess_iff {o : Outcome} : o.isSuccess = true ↔ o.error = none ∧ o.exitCode = some 0 := by
  simp [Outcome.isSuccess]

theorem raised_iff {options : RunOptions} {command : String} {outcomes : List Outcome} :
    (options.raiseOnFailure && !RunResult.isSuccess ⟨command, outcomes⟩) = true ↔ Raised options outcomes := by
  rw [Bool.and_eq_true, Bool.not_eq_true', RunResult.isSuccess, List.all_eq_false, Raised]
  simp only [isSuccess_iff]

theorem stopped_of_firstBroken {options : RunOptions} {outcomes : List Outcome} {host : String} {e : TransportError}
    (hstop : options.stopOnErrors = true) (h : FirstBroken outcomes host e) : Stopped options outcomes := by
  obtain ⟨before, o, after, rfl, -, -, he⟩ := h
  exact ⟨hstop, o, by simp, by simp [he]⟩

/-- Nobody is the first that was not reached if the run need not fail for that. -/
theorem not_stopped_iff {options : RunOptions} {outcomes : List Outcome} :
    (if options.stopOnErrors then outcomes.findSome? fun o => o.error.map fun e => (o.host, e) else none) = none
      ↔ ¬Stopped options outcomes := by
  unfold Stopped
  cases options.stopOnErrors with
  | false => simp
  | true => simp [List.findSome?_eq_none_iff]

theorem concluded_transport {options : RunOptions} (command : String) {outcomes : List Outcome} {host : String}
    {e : TransportError} (hstop : options.stopOnErrors = true) (h : FirstBroken outcomes host e) :
    Concluded options command outcomes (.failed (.transport host e)) where
  transport host' e' := by
    refine ⟨fun heq => by cases heq; exact ⟨hstop, h⟩, fun ⟨_, h'⟩ => ?_⟩
    have heq := (firstBroken_iff.mp h).symm.trans (firstBroken_iff.mp h')
    cases heq
    rfl
  commandFailed failed all := ⟨nofun, fun h' => absurd (stopped_of_firstBroken hstop h) h'.2.1⟩
  returned result := ⟨nofun, fun h' => absurd (stopped_of_firstBroken hstop h) h'.2.1⟩

theorem concluded_commandFailed {options : RunOptions} (command : String) {outcomes : List Outcome}
    (hstop : ¬Stopped options outcomes) (h : Raised options outcomes) :
    Concluded options command outcomes (.failed (.commandFailed command outcomes)) where
  transport host e := ⟨nofun, fun h' => absurd (stopped_of_firstBroken h'.1 h'.2) hstop⟩
  commandFailed failed all := by
    refine ⟨fun heq => ?_, fun h' => ?_⟩
    · cases heq
      exact ⟨⟨rfl, rfl⟩, hstop, h⟩
    · obtain ⟨⟨rfl, rfl⟩, -⟩ := h'
      rfl
  returned result := ⟨nofun, fun h' => absurd h h'.2.2⟩

theorem concluded_returned {options : RunOptions} (command : String) {outcomes : List Outcome}
    (hstop : ¬Stopped options outcomes) (h : ¬Raised options outcomes) :
    Concluded options command outcomes (.returned ⟨command, outcomes⟩) where
  transport host e := ⟨nofun, fun h' => absurd (stopped_of_firstBroken h'.1 h'.2) hstop⟩
  commandFailed failed all := ⟨nofun, fun h' => absurd h'.2.2 h⟩
  returned result := by
    refine ⟨fun heq => ?_, fun h' => ?_⟩
    · cases heq
      exact ⟨rfl, hstop, h⟩
    · rw [h'.1]

/-- Where failures are raised, what is returned is success on every host. -/
theorem Concluded.strict {options : RunOptions} {command : String} {outcomes : List Outcome}
    {ending : Ending RemoteError RunResult} (h : Concluded options command outcomes ending)
    (hraise : options.raiseOnFailure = true) {result : RunResult} (hreturned : ending = .returned result) :
    result.outcomes = outcomes ∧ ∀ o ∈ outcomes, o.error = none ∧ o.exitCode = some 0 := by
  obtain ⟨rfl, -, hsuccess⟩ := (h.returned result).mp hreturned
  exact ⟨rfl, fun o ho => by_contra fun hfailed => hsuccess ⟨hraise, o, ho, hfailed⟩⟩

/-- Where nothing must fail, the outcomes are returned. -/
theorem Concluded.tolerant {options : RunOptions} {command : String} {outcomes : List Outcome}
    {ending : Ending RemoteError RunResult} (h : Concluded options command outcomes ending)
    (hstop : options.stopOnErrors = false) (hraise : options.raiseOnFailure = false) :
    ending = .returned ⟨command, outcomes⟩ :=
  (h.returned _).mpr ⟨rfl, fun h => absurd h.1 (by simp [hstop]), fun h => absurd h.1 (by simp [hraise])⟩

/-- Warnings are only logged. -/
theorem run_warnings {ε α : Type} (w : World σ) (text : α → String) (as : List α) (s : Run Session σ) :
    ∃ t new, (Program.each (fun a => .warn (text a)) as : Program Session ε Unit).run w s = (.returned (), t)
      ∧ t.own = s.own ∧ t.history = s.history ++ new ∧ effects new = [] := by
  induction as generalizing s with
  | nil => exact ⟨s, [], rfl, rfl, by simp, rfl⟩
  | cons a as ih =>
    let line : Request := .log ⟨.warn, text a⟩
    obtain ⟨t, new, hrun, hown, hh, heffects⟩ := ih (s.ask w line)
    refine ⟨t, .asked line (s.reply w line) :: new, hrun, hown, ?_, heffects⟩
    rw [hh, Run.history_ask, List.append_assoc]
    rfl

/-- Judging outcomes only logs, and ends as they and the options say. -/
theorem run_judge (w : World σ) (options : RunOptions) (command : String) (outcomes : List Outcome)
    (s : Run Session σ) :
    ∃ ending t new, (judge options command outcomes).run w s = (ending, t) ∧ t.own = s.own
      ∧ t.history = s.history ++ new ∧ effects new = [] ∧ Concluded options command outcomes ending := by
  unfold judge
  split
  · rename_i host e hfirst
    obtain ⟨hstop, hfirst⟩ := Option.ite_none_right_eq_some.mp hfirst
    exact ⟨_, s, [], rfl, rfl, by simp, rfl, concluded_transport command hstop (firstBroken_iff.mpr hfirst)⟩
  · rename_i hnone
    have hstop := not_stopped_iff.mp hnone
    dsimp only
    split
    · rename_i hraised
      obtain ⟨t, new, hrun, hown, hh, heffects⟩ := run_warnings w Outcome.text outcomes s
      refine ⟨_, t, new, ?_, hown, hh, heffects, concluded_commandFailed command hstop (raised_iff.mp hraised)⟩
      rw [Program.run_andThen_of_returned hrun]
      rfl
    · rename_i hraised
      exact ⟨_, s, [], rfl, rfl, by simp, rfl, concluded_returned command hstop fun h => hraised (raised_iff.mpr h)⟩

/-! ## The whole run -/

/-- Nothing comes of waiting for a call that never ends. -/
theorem run_awaitAll_never (w : World σ) {α : Type} {ends : List (Completion α)} (h : .never ∈ ends)
    (s : Run Session σ) : (awaitAll none ends).run w s = (.stalled, s) := by
  unfold awaitAll
  rw [gather_eq_none_iff.mpr h]
  rfl

/-- Waiting for calls that end gives what they ended with. -/
theorem run_awaitAll (w : World σ) {α : Type} {ends : List (Completion α)} {time : Duration} {values : List α}
    (h : gather ends = some (time, values)) (s : Run Session σ) :
    (awaitAll none ends).run w s = (.returned values, s.ask w (.sleep time)) := by
  unfold awaitAll
  rw [h]
  rfl

/-- All calls ended for those who wait. -/
def AllEnded (options : RunOptions) (replies : List ExecReply) : Prop :=
  ¬(options.timeout = none ∧ .never ∈ replies)

theorem allEnded_iff {options : RunOptions} {replies : List ExecReply} :
    AllEnded options replies ↔ .never ∉ replies.map (limited options.timeout) := by
  rw [AllEnded, not_iff_not, List.mem_map]
  simp only [limited_eq_never_iff]
  exact ⟨fun ⟨hlimit, hnever⟩ => ⟨_, hnever, hlimit, rfl⟩, fun ⟨_, hm, hlimit, hreply⟩ => ⟨hlimit, hreply ▸ hm⟩⟩

/-- Without commands for the hosts nobody is contacted. -/
theorem run_refused (w : World σ) {command : String} {options : RunOptions} {s : Run Session σ} {e : RemoteError}
    (h : Session.commands s.own.hosts command options = .error e) :
    (Session.run command options).run w s = (.failed e, s) := by
  have hraise : (Program.ofExcept (.error e) : SessionProgram (List (String × String))).run w s = (.failed e, s) := rfl
  rw [Session.run, Program.run_andThen_of_returned (Program.run_memory w s), h, Program.run_andThen_of_failed hraise]

/-- Every host is called once, in order. If some call never ends and is waited for, nothing comes of it; otherwise each
host reports what came of its own call, and the reports are judged. -/
theorem run_fanOut (w : World σ) {command : String} {options : RunOptions} {s : Run Session σ}
    {commands : List (String × String)} (hcommands : Session.commands s.own.hosts command options = .ok commands)
    (hdispatch : options.dispatchTimeout = none) :
    ∃ replies ending t later, (Session.run command options).run w s = (ending, t)
      ∧ replies.length = commands.length ∧ t.own = s.own
      ∧ t.history = s.history ++ calls options.pty commands replies ++ later ∧ effects later = []
      ∧ (¬AllEnded options replies → ending = .stalled)
      ∧ (AllEnded options replies → ∃ outcomes,
          List.Forall₂ (fun call o => Reports s.own options.timeout call.1 call.2 o)
            ((commands.map Prod.fst).zip replies) outcomes
          ∧ Concluded options command outcomes ending) := by
  obtain ⟨replies, u, hcalls, hlength, hown, hh⟩ := run_calls w options.pty commands s
  have hreturn : (Program.ofExcept (.ok commands) : SessionProgram (List (String × String))).run w s
      = (.returned commands, s) := rfl
  have hrun : (Session.run command options).run w s = (awaitAll none (replies.map (limited options.timeout)) >>=
      fun answers => judge options command
        ((commands.zip answers).map fun entry => outcomeOf s.own entry.1.1 entry.2)).run w u := by
    rw [Session.run, Program.run_andThen_of_returned (Program.run_memory w s), hcommands,
      Program.run_andThen_of_returned hreturn, Program.run_andThen_of_returned hcalls, hdispatch]
  by_cases hended : AllEnded options replies
  · obtain ⟨⟨time, answers⟩, hg⟩ := Option.ne_none_iff_exists'.mp
      (mt gather_eq_none_iff.mp (allEnded_iff.mp hended))
    let nap : Request := .sleep time
    have houtcomes : (commands.zip answers).map (fun entry => outcomeOf s.own entry.1.1 entry.2)
        = ((commands.map Prod.fst).zip answers).map fun x => outcomeOf s.own x.1 x.2 := by
      rw [List.zip_map_left, List.map_map]
      rfl
    obtain ⟨ending, t, new, hjudge, hown', hh', heffects, hconcluded⟩ := run_judge w options command
      (((commands.map Prod.fst).zip answers).map fun x => outcomeOf s.own x.1 x.2) (u.ask w nap)
    refine ⟨replies, ending, t, .asked nap (u.reply w nap) :: new, ?_, hlength, hown'.trans hown, ?_, heffects,
      fun h => absurd hended h, fun _ => ⟨_, reports_of_gathered (gather_eq_some hg), hconcluded⟩⟩
    · rw [hrun, Program.run_andThen_of_returned (run_awaitAll w hg u), houtcomes, hjudge]
    · rw [hh', Run.history_ask, hh]
      simp [nap]
  · have hnever := not_not.mp (mt allEnded_iff.mpr hended)
    refine ⟨replies, .stalled, u, [], ?_, hlength, hown, by simp [hh], rfl, fun _ => rfl, fun h => absurd h hended⟩
    rw [hrun, Program.run_andThen, run_awaitAll_never w hnever]

/-! ## What the options promise -/

/-- Among entries with distinct names each one is found by its name. -/
theorem lookup_of_nodup {β : Type} {entries : List (String × β)} (hnodup : (entries.map Prod.fst).Nodup)
    {entry : String × β} (hm : entry ∈ entries) : entries.lookup entry.1 = some entry.2 := by
  obtain ⟨early, late, rfl⟩ := List.append_of_mem hm
  refine List.lookup_eq_some_iff.mpr ⟨early, late, rfl, fun other hother => ?_⟩
  rw [List.map_append, List.map_cons, List.nodup_append] at hnodup
  exact bne_iff_ne.mpr (hnodup.2.2 other.1 (List.mem_map_of_mem hother) entry.1 List.mem_cons_self).symm

/-- A session that was bound to distinct addresses knows the instance behind each of them. -/
theorem ids_of_bound (before : Session) {bound : List (String × InstanceId)} (hnodup : (bound.map Prod.fst).Nodup) :
    (before.apply (.bound bound)).hosts.map (before.apply (.bound bound)).id? = bound.map fun b => some b.2 := by
  show (bound.map Prod.fst).map (fun host => bound.reverse.lookup host) = _
  rw [List.map_map]
  refine List.map_congr_left fun b hb => lookup_of_nodup ?_ (List.mem_reverse.mpr hb)
  rwa [(bound.reverse_perm.map Prod.fst).nodup_iff]

/-- Reports are those of the hosts that were called, in order, with the instances behind them. -/
theorem Reports.map_eq {s : Session} {limit : Option Duration} {called : List (String × ExecReply)}
    {outcomes : List Outcome} (h : List.Forall₂ (fun call o => Reports s limit call.1 call.2 o) called outcomes) :
    outcomes.map Outcome.host = called.map Prod.fst ∧ outcomes.map Outcome.id = (called.map Prod.fst).map s.id? := by
  induction h with
  | nil => exact ⟨rfl, rfl⟩
  | cons hreport _ ih =>
    simp only [List.map_cons, hreport.host_eq.1, hreport.host_eq.2, ih.1, ih.2, and_self]

/-- What a run of a command on all bound hosts does and how it ends, where `commands` are the hosts' own commands and
`replies` what the calls of these ended with. -/
structure FannedOut (command : String) (options : RunOptions) (commands : List (String × String))
    (replies : List ExecReply) (s t : Run Session σ) (ending : Ending RemoteError RunResult) : Prop where
  hosts : commands.map Prod.fst = s.own.hosts
  answered : replies.length = commands.length
  own : t.own = s.own
  /-- Every host is called once, in order, and after that none is. -/
  contacted : ∃ later, t.history = s.history ++ calls options.pty commands replies ++ later ∧ effects later = []
  waiting : ¬AllEnded options replies → ending = .stalled
  concluded : AllEnded options replies → ∃ outcomes,
    (outcomes.map Outcome.host = s.own.hosts ∧ outcomes.map Outcome.id = s.own.hosts.map s.own.id?)
    ∧ List.Forall₂ (fun call o => Reports s.own options.timeout call.1 call.2 o) (s.own.hosts.zip replies) outcomes
    ∧ Concluded options command outcomes ending
  ids : ∀ before bound, s.own = Session.apply before (.bound bound) → (bound.map Prod.fst).Nodup →
    s.own.hosts.map s.own.id? = bound.map fun b => some b.2
  strict : options.raiseOnFailure = true → ∀ result, ending = .returned result →
    result.outcomes.map Outcome.host = s.own.hosts ∧ ∀ o ∈ result.outcomes, o.error = none ∧ o.exitCode = some 0
  tolerant : options.stopOnErrors = false → options.raiseOnFailure = false → ∀ e, ending ≠ .failed e

theorem fannedOut_run (w : World σ) {command : String} {options : RunOptions} {s : Run Session σ}
    (hhosts : s.own.hosts ≠ []) (hargs : ∀ args ∈ options.hostArgs, args.length = s.own.hosts.length)
    (hdispatch : options.dispatchTimeout = none) :
    ∃ commands replies, Session.commands s.own.hosts command options = .ok commands
      ∧ FannedOut command options commands replies s ((Session.run command options).run w s).2
        ((Session.run command options).run w s).1 := by
  obtain ⟨commands, hcommands, hfst⟩ := commands_of_bound command hhosts hargs
  obtain ⟨replies, ending, t, later, hrun, hlength, hown, hh, heffects, hwaiting, hconcluded⟩ :=
    run_fanOut w hcommands hdispatch
  rw [hfst] at hconcluded
  have hcalled : (s.own.hosts.zip replies).map Prod.fst = s.own.hosts :=
    List.map_fst_zip (Nat.le_of_eq (by rw [hlength, ← hfst, List.length_map]))
  rw [hrun]
  refine ⟨commands, replies, hcommands, hfst, hlength, hown, ⟨later, hh, heffects⟩, hwaiting, fun hended => ?_,
    fun before bound hbound hnodup => hbound ▸ ids_of_bound before hnodup, fun hraise result hreturned => ?_,
    fun hstop hraise e hfailed => ?_⟩
  · obtain ⟨outcomes, hreports, hjudged⟩ := hconcluded hended
    have hmap := Reports.map_eq hreports
    rw [hcalled] at hmap
    exact ⟨outcomes, hmap, hreports, hjudged⟩
  · by_cases hended : AllEnded options replies
    · obtain ⟨outcomes, hreports, hjudged⟩ := hconcluded hended
      have hmap := (Reports.map_eq hreports).1
      rw [hcalled] at hmap
      obtain ⟨rfl, hsuccess⟩ := hjudged.strict hraise hreturned
      exact ⟨hmap, hsuccess⟩
    · cases (hwaiting hended).symm.trans hreturned
  · by_cases hended : AllEnded options replies
    · obtain ⟨outcomes, -, hjudged⟩ := hconcluded hended
      cases hfailed.symm.trans (hjudged.tolerant hstop hraise)
    · cases (hwaiting hended).symm.trans hfailed

/-- **What comes of a command on all hosts.** Without hosts, or with arguments in another number than the hosts, the run
fails and nobody is contacted. Otherwise every host is called once, in order, and has one outcome, made of what its own
call ended with; the run fails for the first host that was not reached or with all outcomes if the options ask for
that, and returns all outcomes otherwise. -/
theorem run_aggregates_outcomes (w : World σ) (command : String) (options : RunOptions) (s : Run Session σ) :
    (s.own.hosts = [] → (Session.run command options).run w s = (.failed .notConnected, s))
      ∧ (∀ args ∈ options.hostArgs, s.own.hosts ≠ [] → args.length ≠ s.own.hosts.length →
        (Session.run command options).run w s = (.failed (.hostArgs s.own.hosts.length args.length), s))
      ∧ (options.dispatchTimeout = none → s.own.hosts ≠ [] →
        (∀ args ∈ options.hostArgs, args.length = s.own.hosts.length) →
        ∃ commands replies, Session.commands s.own.hosts command options = .ok commands
          ∧ FannedOut command options commands replies s ((Session.run command options).run w s).2
            ((Session.run command options).run w s).1) := by
  refine ⟨fun hhosts => ?_, fun args hargs hhosts hlength => ?_, fun hdispatch hhosts hargs =>
    fannedOut_run w hhosts hargs hdispatch⟩
  · exact run_refused w (by rw [hhosts]; rfl)
  · exact run_refused w (commands_of_mismatch command hhosts hargs hlength)

/-- The world of three hosts: a command succeeds on the first, fails on the second, and never ends on the third. -/
def threeHosts : World Unit where
  answer r state := (match r with
    | .shell (.exec "a" _ _) => .after .zero (.ok ⟨some 0, "up", ""⟩)
    | .shell (.exec "b" _ _) => .after .zero (.ok ⟨some 2, "", "down"⟩)
    | .shell (.exec "c" _ _) => .never
    | r => r.unanswered, state)

/-- An argument for each of three hosts, five seconds for each, and no failure for a host that is not reached. -/
def threeArgs : RunOptions :=
  { hostArgs := some ["1", "2", "3"], timeout := some (.ofSeconds 5), stopOnErrors := false }

/-- A session that is bound to the three hosts, and knows the instance behind one. -/
def threeBound : Run Session Unit := ⟨{ hosts := ["a", "b", "c"], ids := [("b", "i-2")] }, (), []⟩

/-- The outcomes of all three hosts come with the failure, also that of the host that timed out. -/
theorem run_aggregates_outcomes_three :
    ((Session.run "start \x7b\x7d" threeArgs).run threeHosts threeBound).1
        = .failed (.commandFailed "start \x7b\x7d"
          [⟨"a", none, some 0, "up", "", none⟩, ⟨"b", some "i-2", some 2, "", "down", none⟩,
            ⟨"c", none, none, "", "", some (.timeout (.ofSeconds 5))⟩])
      ∧ ∃ commands replies, Session.commands threeBound.own.hosts "start \x7b\x7d" threeArgs = .ok commands
        ∧ FannedOut "start \x7b\x7d" threeArgs commands replies threeBound
          ((Session.run "start \x7b\x7d" threeArgs).run threeHosts threeBound).2
          ((Session.run "start \x7b\x7d" threeArgs).run threeHosts threeBound).1 := by
  refine ⟨rfl, (run_aggregates_outcomes threeHosts _ threeArgs threeBound).2.2 rfl (by decide) fun args hargs => ?_⟩
  cases hargs
  rfl

end CloudFleet.Session
