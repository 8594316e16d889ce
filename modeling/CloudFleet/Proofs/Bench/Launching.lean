import CloudFleet.Proofs.Bench.LaunchLine
import CloudFleet.Proofs.Bench.Processes
import CloudFleet.Proofs.Bench.Rounds

/-!
# The launch of a benchmark run

A run is its approach, its launch and what comes after (`runBenchmark_eq`). Whoever reaches the launch has as many
hosts as nodes and as many rounds as hosts, and nothing was started on the way; the launch starts one line on every
host, with the rounds that the record gives it in the place of the first mark; nothing is started after.
-/

set_option autoImplicit false

namespace CloudFleet

variable {σ : Type}

namespace Bench

open Program (Ensures Keeps)
open Session (dealings keeps_local keeps_log spawns)

/-! ## The parts of a run -/

/-- What is launched: when, on which hosts, and with which rounds. -/
structure Launch where
  schedule : Schedule
  hosts : List String
  rounds : List UInt64

/-- The record of the run that is launched. -/
def Launch.record (l : Launch) (p : BenchParams) : RunRecord := newRecord p l.schedule l.hosts l.rounds

/-- What the launch starts: on every host of the record the command with the rounds of the host in the place of the
first mark. -/
def Launch.substituted (l : Launch) (c : BenchConfig) (p : BenchParams) : List (String × String × Bool) :=
  (l.record p).roundsPerHost.map fun entry =>
    (entry.1, Text.replaceFirst (launchCommand c p l.schedule) hostArgMark (toString entry.2), true)

/-- What it should start: on every host of the record the line with the rounds of the host. -/
def Launch.intended (l : Launch) (c : BenchConfig) (p : BenchParams) : List (String × String × Bool) :=
  (l.record p).roundsPerHost.map fun entry => (entry.1, launchLine c p l.schedule (toString entry.2), true)

/-- A run up to the launch. -/
def approach (fc : FleetConfig) (c : BenchConfig) (patience : Nat) (f : Fleet) (p : BenchParams) :
    BenchProgram Launch := do
  begin fc c f p
  let s ← Program.memory
  if s.hosts.length ≠ p.numNodes.toNat then
    .bail s!"expected {p.numNodes} running instance(s), found {s.hosts.length}"
  else
    let now ← Program.request .now
    match Schedule.new? now p with
    | none => .crash
    | some schedule =>
      let rounds ← drawRounds p patience []
      tellSchedule schedule (newRecord p schedule s.hosts rounds)
      enter .prepare
      let _ ← Program.reportRemote (Session.run (prepareCommand c) .tolerant)
      pure ⟨schedule, s.hosts, rounds⟩

/-- The launch. -/
def launching (c : BenchConfig) (p : BenchParams) (l : Launch) : BenchProgram Unit := do
  enter .launch
  .info (launchCommand c p l.schedule)
  Program.reportRemote
    (Session.spawn (launchCommand c p l.schedule) { pty := true, hostArgs := some (l.rounds.map toString) })

/-- A run after its launch. -/
def finishing (c : BenchConfig) (p : BenchParams) (l : Launch) : BenchProgram RunRecord := do
  enter .wait
  .info "waiting for protocol run to complete..."
  let now ← Program.request .now
  let _ ← Program.request (.sleep (l.schedule.remaining now))
  .info s!"protocol run should be finished now, waiting {c.postRunGrace.text} more"
  let _ ← Program.request (.sleep c.postRunGrace)
  teardown c
  collect c (l.record p)

/-- A run is its approach, its launch and what comes after. -/
theorem runBenchmark_eq (fc : FleetConfig) (c : BenchConfig) (patience : Nat) (f : Fleet) (p : BenchParams) :
    runBenchmark fc c patience f p = approach fc c patience f p >>= fun l => launching c p l >>= fun _ =>
      finishing c p l := by
  unfold runBenchmark approach
  rw [Program.andThen_assoc]
  refine congrArg (begin fc c f p >>= ·) (funext fun _ => ?_)
  rw [Program.andThen_assoc]
  refine congrArg (Program.memory >>= ·) (funext fun s => ?_)
  split
  · rfl
  · rw [Program.andThen_assoc]
    refine congrArg (Program.request .now >>= ·) (funext fun now => ?_)
    cases Schedule.new? now p with
    | none => rfl
    | some schedule =>
      simp only [execute, launching, finishing, Program.andThen_assoc]
      rfl

/-! ## What is started where -/

variable (w : World σ) (fc : FleetConfig) (c : BenchConfig) (patience : Nat) (f : Fleet) (p : BenchParams)

/-- Everything but a start leaves what was to be started. -/
theorem spawns_stable (listed : List (String × String × Bool)) :
    Session.Stable w fun t => spawns t.history = listed where
  asked s r hr hs := by
    have hquiet : dealings [.asked r (s.reply w r)] = [] := by simp [dealings, Session.deals, hr]
    rw [Run.history_ask, Session.spawns_append, Session.spawns_of_dealings hquiet, List.append_nil]
    exact hs
  bound s hosts hs := by
    rw [Run.history_change, Session.spawns_append]
    exact (List.append_nil _).trans hs
  aimed s hosts hs := by
    rw [Run.history_change, Session.spawns_append]
    exact (List.append_nil _).trans hs

theorem spawns_closeProcesses (listed : List (String × String × Bool)) :
    Keeps w (fun t => spawns t.history = listed) (closeProcesses c) := by
  intro s hs
  obtain ⟨t, h, hrun, -, hh, hclosing⟩ := run_closeProcesses w c s
  rw [hrun]
  show spawns t.history = listed
  rw [hh, Session.spawns_append, hclosing.spawns_eq, List.append_nil]
  exact hs

/-- Before the launch nothing is started. -/
theorem spawns_approach (listed : List (String × String × Bool)) :
    Keeps w (fun t => spawns t.history = listed) (approach fc c patience f p) := by
  have h := spawns_stable w listed
  refine (Stable.begin h c (spawns_closeProcesses w c listed) fc f p).bind fun _ => Keeps.memory.bind fun s => ?_
  split
  · exact Keeps.raise _
  · refine (keeps_local h.local rfl).bind fun now => ?_
    cases Schedule.new? now p with
    | none => exact Keeps.crash
    | some schedule =>
      refine (keeps_drawRounds h.local p patience []).bind fun rounds => ?_
      refine (keeps_tellSchedule h.local _ _).bind fun _ => (keeps_enter h.local _).bind fun _ => ?_
      exact (keeps_reported (Session.keeps_run h.asked _ _)).bind fun _ => Keeps.pure _

/-- After the launch nothing is started. -/
theorem spawns_finishing (l : Launch) (listed : List (String × String × Bool)) :
    Keeps w (fun t => spawns t.history = listed) (finishing c p l) := by
  have h := spawns_stable w listed
  refine (keeps_enter h.local _).bind fun _ => (keeps_log h.local _ _).bind fun _ => ?_
  refine (keeps_local h.local rfl).bind fun now => (keeps_local h.local rfl).bind fun _ => ?_
  refine (keeps_log h.local _ _).bind fun _ => (keeps_local h.local rfl).bind fun _ => ?_
  exact (keeps_teardown h.asked c).bind fun _ => keeps_collect h.asked c _

/-- As many rounds are drawn as there are nodes. -/
theorem drawRounds_ensures (words : List UInt64) {s : Run Session σ} {I : Run Session σ → Prop} (hs : I s)
    (hasked : ∀ t r, I t → I (t.ask w r)) :
    Ensures w (drawRounds p patience words) s (fun rounds t => rounds.length = p.numNodes.toNat ∧ I t)
      fun _ _ => True := by
  induction patience generalizing words s with
  | zero =>
    unfold drawRounds
    split
    · rename_i rounds rest hdrawn
      exact Ensures.pure ⟨Rounds.length_assign hdrawn, hs⟩
    · exact Ensures.stall
  | succ patience ih =>
    unfold drawRounds
    split
    · rename_i rounds rest hdrawn
      exact Ensures.pure ⟨Rounds.length_assign hdrawn, hs⟩
    · exact Ensures.ask (ih _ (hasked s _ hs))

/-- Whoever reaches the launch has as many hosts as nodes, and as many rounds. -/
theorem approach_ensures (s : Run Session σ) :
    Ensures w (approach fc c patience f p) s
      (fun l t => l.hosts = t.own.hosts ∧ l.hosts.length = p.numNodes.toNat ∧ l.rounds.length = p.numNodes.toNat)
      fun _ _ => True := by
  refine (Ensures.anyhow (begin fc c f p)).bind fun _ t _ => Ensures.consult ?_
  -- from here on the memory stays as it is
  have hasked : ∀ (u : Run Session σ) r, u.own = t.own → (u.ask w r).own = t.own := fun _ _ hu => hu
  have hlocal : ∀ (u : Run Session σ) r, r.remote = false → u.own = t.own → (u.ask w r).own = t.own :=
    fun _ _ _ hu => hu
  have hquiet : ∀ (u : Run Session σ) r, r.handles = false → u.own = t.own → (u.ask w r).own = t.own :=
    fun _ _ _ hu => hu
  by_cases hlength : t.own.hosts.length = p.numNodes.toNat
  · rw [if_neg (not_not_intro hlength)]
    refine Ensures.ask ?_
    cases Schedule.new? _ p with
    | none => exact Ensures.crash
    | some schedule =>
      have hdrawn := drawRounds_ensures w patience p [] (s := t.ask w .now) (I := fun u => u.own = t.own) rfl hasked
      refine hdrawn.bind fun rounds u ⟨hrounds, hu⟩ => ?_
      have htold : ∀ {α : Type} {q : BenchProgram α} {v : Run Session σ}, Keeps w (fun v => v.own = t.own) q →
          v.own = t.own → Ensures w q v (fun _ v => v.own = t.own) fun _ _ => True :=
        fun hq hv => (Ensures.of_keeps hq hv).mono (fun _ _ h => h) fun _ _ _ => trivial
      refine (htold (keeps_tellSchedule hlocal _ _) hu).bind fun _ u hu => ?_
      refine (htold (keeps_enter hlocal _) hu).bind fun _ u hu => ?_
      refine (htold (keeps_reported (Session.keeps_run hquiet _ _)) hu).bind fun _ u hu => ?_
      exact Ensures.pure ⟨by rw [hu], hlength, hrounds⟩
  · rw [if_pos hlength]
    exact Ensures.raise trivial

/-- The launch starts the command on every host, with the rounds of the host in the place of the first mark. -/
theorem spawns_launching (l : Launch) {t : Run Session σ} (hhosts : l.hosts = t.own.hosts)
    (hrounds : l.rounds.length = l.hosts.length) :
    spawns ((launching c p l).run w t).2.history = spawns t.history ++ l.substituted c p := by
  let command := launchCommand c p l.schedule
  let options : RunOptions := { pty := true, hostArgs := some (l.rounds.map toString) }
  let told := (t.ask w (.log ⟨.info, s!"phase {Phase.launch.title}"⟩)).ask w (.log ⟨.info, command⟩)
  have htold : spawns told.history = spawns t.history := by
    rw [Run.history_ask, Run.history_ask, List.append_assoc, Session.spawns_append]
    exact List.append_nil _
  have hspawn : ((launching c p l).run w t).2 = ((Session.spawn command options).run w told).2 :=
    Program.run_mapError_snd w _ (Session.spawn command options) told
  rw [hspawn, ← htold]
  by_cases hbound : l.hosts = []
  · have hunbound : Session.commands told.own.hosts command options = .error .notConnected := by
      rw [show told.own.hosts = [] from hhosts.symm.trans hbound]
      rfl
    rw [Session.run_spawn_refused w hunbound, Launch.substituted, Launch.record, newRecord, hbound]
    exact (List.append_nil _).symm
  · have hargs : options.hostArgs = some (l.rounds.map toString) := rfl
    have hcommands := Session.commands_of_args command hbound hargs (by simpa using hrounds)
    rw [hhosts] at hcommands
    obtain ⟨u, h, hrun, hh, hspawns, -⟩ := Session.run_spawn (s := told) w hcommands
    rw [hrun, hh, Session.spawns_append, hspawns, ← hhosts, List.zip_map_right, List.map_map, List.map_map]
    rfl

/-! ## The record -/

theorem collectResults_ensures (r : RunRecord) (s : Run Session σ) :
    Ensures w (collectResults c r : BenchProgram (Collected Verdict)) s
      (fun judged _ => judged.record.roundsPerHost = r.roundsPerHost) fun _ _ => True := by
  unfold collectResults
  refine (Ensures.anyhow _).bind fun _ s _ => (Ensures.anyhow _).bind fun result s _ => ?_
  cases result with
  | error e => exact Ensures.pure rfl
  | ok result =>
    refine (Ensures.anyhow _).bind fun _ s _ => (Ensures.anyhow _).bind fun appended s _ => ?_
    cases appended <;> exact Ensures.pure rfl

theorem collectLogs_ensures (r : RunRecord) (s : Run Session σ) :
    Ensures w (collectLogs c r : BenchProgram (Collected Path)) s
      (fun kept _ => kept.record.roundsPerHost = r.roundsPerHost) fun _ _ => True := by
  unfold collectLogs
  refine (Ensures.anyhow _).bind fun dir s _ => ?_
  cases dir with
  | error e => exact Ensures.pure rfl
  | ok dir =>
    refine (Ensures.anyhow _).bind fun written s _ => ?_
    cases written <;> exact Ensures.pure rfl

/-- The record that is returned has the rounds that were launched. -/
theorem finishing_ensures (l : Launch) (s : Run Session σ) :
    Ensures w (finishing c p l) s (fun r _ => r.roundsPerHost = (l.record p).roundsPerHost) fun _ _ => True := by
  unfold finishing
  refine (Ensures.anyhow _).bind fun _ s _ => (Ensures.anyhow _).bind fun _ s _ => ?_
  refine (Ensures.anyhow _).bind fun _ s _ => (Ensures.anyhow _).bind fun _ s _ => ?_
  refine (Ensures.anyhow _).bind fun _ s _ => (Ensures.anyhow _).bind fun _ s _ => ?_
  refine (Ensures.anyhow _).bind fun _ s _ => (Ensures.anyhow _).bind fun _ s _ => ?_
  refine (collectResults_ensures w c _ s).bind fun judged s hjudged => (Ensures.anyhow _).bind fun _ s _ => ?_
  refine (collectLogs_ensures w c _ s).bind fun kept s hkept => (Ensures.anyhow _).bind fun _ s _ => ?_
  exact Ensures.pure (hkept.trans hjudged)

/-! ## Every host has its rounds -/

/-- What is started is what should be exactly if no text before the rounds holds a mark, or there is no host. -/
theorem substituted_eq_intended_iff (l : Launch) (hrounds : l.rounds.length = l.hosts.length) :
    l.substituted c p = l.intended c p ↔ Unmarked c ∨ l.hosts = [] := by
  rw [Launch.substituted, Launch.intended, List.map_inj_left]
  constructor
  · intro hsame
    by_contra hnot
    rw [not_or] at hnot
    have hpos : 0 < (l.record p).roundsPerHost.length := by
      show 0 < (l.hosts.zip l.rounds).length
      rw [List.length_zip, hrounds, Nat.min_self]
      exact List.length_pos_iff.mpr hnot.2
    have hfirst := hsame _ (List.getElem_mem hpos)
    exact hnot.1 ((replaceFirst_launchCommand_iff c p l.schedule _).mp (congrArg (fun x => x.2.1) hfirst))
  · rintro (hunmarked | hempty) entry hentry
    · rw [(replaceFirst_launchCommand_iff c p l.schedule entry.2).mpr hunmarked]
    · rw [Launch.record, newRecord, hempty] at hentry
      exact absurd hentry List.not_mem_nil

/-- A run that reaches its launch started nothing before. Its record gives rounds to each of the bound hosts, in their
order, and they are as many as there are nodes. It starts one command on each of these hosts, and that is the launch
line with the rounds of the host exactly if no text of the configuration before them holds a mark; the record that is
returned has the same rounds. A run that does not reach its launch starts nothing. -/
theorem hosts_launch_their_rounds (s : Run Session σ) :
    (∃ l t, (approach fc c patience f p).run w s = (.returned l, t) ∧ spawns t.history = spawns s.history
      ∧ (l.record p).roundsPerHost.map Prod.fst = t.own.hosts ∧ t.own.hosts.length = p.numNodes.toNat
      ∧ ∃ new, ((runBenchmark fc c patience f p).run w s).2.history = t.history ++ new
        ∧ (spawns new).map Prod.fst = t.own.hosts
        ∧ (spawns new = l.intended c p ↔ Unmarked c ∨ t.own.hosts = [])
        ∧ ∀ r, ((runBenchmark fc c patience f p).run w s).1 = .returned r →
            r.roundsPerHost = (l.record p).roundsPerHost)
    ∨ (∀ l, ((approach fc c patience f p).run w s).1 ≠ .returned l)
      ∧ spawns ((runBenchmark fc c patience f p).run w s).2.history = spawns s.history := by
  have hbefore := spawns_approach w fc c patience f p (spawns s.history) s rfl
  have hensures := approach_ensures w fc c patience f p s
  rw [runBenchmark_eq, Program.run_andThen]
  cases hr : (approach fc c patience f p).run w s with
  | mk ending t =>
    rw [hr] at hbefore
    cases ending with
    | returned l =>
      obtain ⟨hhosts, hnodes, hrounds⟩ := hensures.of_returned hr
      have hlength : l.rounds.length = l.hosts.length := hrounds.trans hnodes.symm
      have hrecord : (l.record p).roundsPerHost.map Prod.fst = t.own.hosts := by
        rw [← hhosts]
        exact List.map_fst_zip (Nat.le_of_eq hlength.symm)
      -- all that is started is started by the launch itself
      obtain ⟨new, hh, -⟩ := Program.run_history w (launching c p l >>= fun _ => finishing c p l) t
      have hlaunch := spawns_launching w c p l hhosts hlength
      have hspawns := Program.after_andThen (G := fun u => spawns u.history = spawns t.history ++ l.substituted c p)
        (f := fun _ => finishing c p l) hlaunch fun _ u hu =>
          spawns_finishing w c p l _ u (by rw [hu] at hlaunch; exact hlaunch)
      rw [hh, Session.spawns_append] at hspawns
      have hnew := List.append_cancel_left hspawns
      refine Or.inl ⟨l, t, rfl, hbefore, hrecord, hhosts ▸ hnodes, new, hh, ?_, ?_, fun r hreturned => ?_⟩
      · rw [hnew, Launch.substituted, List.map_map, ← hrecord]
        rfl
      · rw [hnew, ← hhosts]
        exact substituted_eq_intended_iff c p l hlength
      · have hfinal := (Ensures.anyhow (s := t) (launching c p l)).bind fun _ u _ => finishing_ensures w c p l u
        exact hfinal.of_returned (Prod.ext hreturned rfl)
    | failed e => exact Or.inr ⟨nofun, hbefore⟩
    | crashed => exact Or.inr ⟨nofun, hbefore⟩
    | stalled => exact Or.inr ⟨nofun, hbefore⟩

/-- A world where every command succeeds, every process starts, and every file can be read, copied and written. All
files are empty. -/
def obliging : World Unit where
  answer r u := (match r with
    | .shell (.exec ..) => .after .zero (.ok { exitCode := some 0, stdout := "", stderr := "" })
    | .shell (.spawn host ..) => .ok ⟨host, 1⟩
    | .shell (.copyTo ..) | .shell (.copyFrom ..) => .ok ()
    | .file (.readText _) => .ok ""
    | .file (.readBytes _) => .ok .empty
    | .file (.createDirs _) | .file (.append ..) | .file (.write ..) => .ok ()
    | r => r.unanswered, u)

/-- Two running instances. -/
def twoRunning : Fleet where
  instances := [⟨"i-a", ⟨"eu-west-3"⟩, some "a", .running, true, none⟩,
    ⟨"i-b", ⟨"us-east-1"⟩, some "b", .running, true, none⟩]

/-- A run of seven rounds on two nodes. -/
def sevenRounds : BenchParams := { numNodes := 2, numRounds := 7, sync := false }

/-- What that run launches at the beginning of 1970. -/
def sevenLaunch : Launch := ⟨⟨⟨60, 0⟩, ⟨102, 0⟩⟩, ["a", "b"], [7, 7]⟩

theorem schedule_sevenRounds : Schedule.new? (.ofNanos 0) sevenRounds = some sevenLaunch.schedule := by decide +kernel

/-- Where that run stands when the hosts are connected and cleaned. -/
def begun : Run Session Unit := ((begin {} {} twoRunning sevenRounds).run obliging (fresh ())).2

theorem approach_sevenRounds :
    ∃ t, (approach {} {} 0 twoRunning sevenRounds).run obliging (fresh ()) = (.returned sevenLaunch, t) := by
  have hbegin : (begin {} {} twoRunning sevenRounds).run obliging (fresh ()) = (.returned (), begun) := rfl
  have hnow : begun.reply obliging .now = .ofNanos 0 := rfl
  rw [approach, Program.run_andThen_of_returned hbegin,
    Program.run_andThen_of_returned (Program.run_memory obliging begun), if_neg (by decide),
    Program.run_andThen_of_returned (Program.run_request obliging .now begun), hnow, schedule_sevenRounds]
  exact ⟨_, rfl⟩

/-- That run launches the line with seven rounds on both hosts. -/
theorem hosts_launch_their_rounds_seven :
    ∃ t new, (approach {} {} 0 twoRunning sevenRounds).run obliging (fresh ()) = (.returned sevenLaunch, t)
      ∧ ((runBenchmark {} {} 0 twoRunning sevenRounds).run obliging (fresh ())).2.history = t.history ++ new
      ∧ spawns new = [("a", launchLine {} sevenRounds sevenLaunch.schedule "7", true),
        ("b", launchLine {} sevenRounds sevenLaunch.schedule "7", true)] := by
  obtain ⟨t, hreached⟩ := approach_sevenRounds
  rcases hosts_launch_their_rounds obliging {} {} 0 twoRunning sevenRounds (fresh ()) with
    ⟨l, u, hr, -, -, -, new, hh, -, hlines, -⟩ | ⟨hnot, -⟩
  · rw [hreached] at hr
    cases hr
    exact ⟨t, new, hreached, hh, hlines.mpr (Or.inl (by decide))⟩
  · exact absurd (congrArg Prod.fst hreached) (hnot _)

/-- A configuration whose monitor has a mark of its own. -/
def markedMonitor : BenchConfig := { monitorCommand := "find /tmp -name \x7b\x7d -print" }

/-- The rounds go to the monitor. -/
theorem launching_gives_rounds_to_the_monitor :
    ¬∀ (c : BenchConfig) (p : BenchParams) (l : Launch) (t : Run Session Unit), l.hosts = t.own.hosts → l.hosts ≠ [] →
      l.rounds.length = l.hosts.length →
      spawns ((launching c p l).run obliging t).2.history = spawns t.history ++ l.intended c p := by
  intro hall
  let l : Launch := ⟨⟨.ofNanos 0, .ofNanos 0⟩, ["a"], [7]⟩
  let t : Run Session Unit := ⟨{ hosts := ["a"] }, (), []⟩
  have hintended := hall markedMonitor sevenRounds l t rfl (List.cons_ne_nil _ _) rfl
  rw [spawns_launching obliging markedMonitor sevenRounds l rfl rfl] at hintended
  rcases (substituted_eq_intended_iff markedMonitor sevenRounds l rfl).mp (List.append_cancel_left hintended) with
    hunmarked | hempty
  · exact absurd hunmarked (by decide)
  · cases hempty

end Bench

end CloudFleet
