import CloudFleet.Proofs.Bench.Operation
import CloudFleet.World.Inert

/-!
# Processes over operations

Processes that were started are neither lost nor closed twice. Whatever a world answers, after any operations the
processes that started are those that were closed together with those that are tracked (`Balanced`,
`balanced_runAll`): starting some tracks what started, and cleaning up closes what is tracked, each process once, before
anything is killed (`run_cleanup`).
-/

set_option autoImplicit false

namespace CloudFleet.Bench

open Program (Keeps)
open Session (answers closed dealings execs spawns started)

variable {σ ε : Type}

/-! ## Closing processes -/

/-- What closing processes adds to a history. -/
structure Closing (processes : List Process) (h : List (Happening Session)) : Prop where
  closed_eq : closed h = processes
  answers_eq : answers h = []
  spawns_eq : spawns h = []
  execs_eq : execs h = []

namespace Closing

variable {ps qs : List Process} {h k : List (Happening Session)}

theorem append (hh : Closing ps h) (hk : Closing qs k) : Closing (ps ++ qs) (h ++ k) := by
  refine ⟨?_, ?_, ?_, ?_⟩
  · rw [Session.closed_append, hh.closed_eq, hk.closed_eq]
  · rw [Session.answers_append, hh.answers_eq, hk.answers_eq]
    rfl
  · rw [Session.spawns_append, hh.spawns_eq, hk.spawns_eq]
    rfl
  · rw [Session.execs_append, hh.execs_eq, hk.execs_eq]
    rfl

theorem started_eq (hh : Closing ps h) : started h = [] := by
  rw [started, hh.answers_eq]
  rfl

end Closing

/-- A process is hung up on once; a failure is only noted. -/
theorem run_closeProcess (w : World σ) (process : Process) (s : Run Session σ) :
    ∃ t h, (closeProcess process : Program Session ε Unit).run w s = (.returned (), t) ∧ t.own = s.own
      ∧ t.history = s.history ++ h ∧ Closing [process] h := by
  let call := Request.shell (.close process)
  cases hr : s.reply w call with
  | ok =>
    refine ⟨s.ask w call, [.asked call (s.reply w call)], ?_, rfl, rfl, rfl, rfl, rfl, rfl⟩
    rw [closeProcess, Session.hangUp, Program.run_andThen_of_returned (Program.run_request w call s), hr]
    rfl
  | error e =>
    let line : Request := .log ⟨.warn, s!"closing process on {process.host} failed: {e.message}"⟩
    let t := s.ask w call
    refine ⟨t.ask w line, [.asked call (s.reply w call), .asked line (t.reply w line)], ?_, rfl, ?_, rfl, rfl, rfl, rfl⟩
    · rw [closeProcess, Session.hangUp, Program.run_andThen_of_returned (Program.run_request w call s), hr]
      rfl
    · rw [Run.history_ask, Run.history_ask, List.append_assoc]
      rfl

theorem run_closeEach (w : World σ) (processes : List Process) (s : Run Session σ) :
    ∃ t h, (Program.each closeProcess processes : Program Session ε Unit).run w s = (.returned (), t) ∧ t.own = s.own
      ∧ t.history = s.history ++ h ∧ Closing processes h := by
  induction processes generalizing s with
  | nil => exact ⟨s, [], rfl, rfl, by simp, rfl, rfl, rfl, rfl⟩
  | cons process processes ih =>
    obtain ⟨t, h, hrun, hown, hh, hclosing⟩ := run_closeProcess (ε := ε) w process s
    obtain ⟨u, k, hrest, hown', hk, hclosing'⟩ := ih t
    refine ⟨u, h ++ k, ?_, by rw [hown', hown], by rw [hk, hh, List.append_assoc], hclosing.append hclosing'⟩
    rw [Program.each, Program.run_andThen_of_returned hrun, hrest]

/-- Every process that is tracked is hung up on once, in order, and none is tracked afterwards. -/
theorem run_closeProcesses (w : World σ) (c : BenchConfig) (s : Run Session σ) :
    ∃ t h, (closeProcesses c).run w s = (.returned (), t) ∧ t.own = { s.own with processes := [] }
      ∧ t.history = s.history ++ h ∧ Closing s.own.processes h := by
  let released := s.change Session.Change.released
  have hrelease : (Session.release : SessionProgram (List Process)).run w s = (.returned s.own.processes, released) :=
    rfl
  by_cases hempty : s.own.processes.isEmpty = true
  · refine ⟨released, [.changed Session.Change.released], ?_, rfl, rfl, ?_, rfl, rfl, rfl⟩
    · rw [closeProcesses, Program.run_andThen_of_returned hrelease, if_pos hempty]
      rfl
    · rw [List.isEmpty_iff.mp hempty]
      rfl
  · let line : Request := .log ⟨.info, s!"stopping {s.own.processes.length} process(es) gracefully"⟩
    let grace : Request := .sleep c.shutdownGrace
    let told := released.ask w line
    obtain ⟨t, h, hrun, hown, hh, hclosing⟩ := run_closeEach (ε := RemoteError) w s.own.processes told
    refine ⟨t.ask w grace, [.changed Session.Change.released, .asked line (released.reply w line)] ++ h
      ++ [.asked grace (t.reply w grace)], ?_, hown, ?_, ?_⟩
    · rw [closeProcesses, Program.run_andThen_of_returned hrelease, if_neg hempty, Program.info, Program.log,
        Program.run_andThen_of_returned (Program.run_request w line released), Program.run_andThen_of_returned hrun]
      rfl
    · rw [Run.history_ask, hh, Run.history_ask, Run.history_change]
      simp
    · have hbefore : Closing [] [.changed Session.Change.released, .asked line (released.reply w line)] :=
        ⟨rfl, rfl, rfl, rfl⟩
      have hafter : Closing [] [.asked grace (t.reply w grace)] := ⟨rfl, rfl, rfl, rfl⟩
      have hall := (hbefore.append hclosing).append hafter
      rwa [List.nil_append, List.append_nil] at hall

/-! ## Cleaning up -/

/-- The course of a cleanup: the processes that were tracked are closed, each once, then the hosts are told to kill what
is left, and none is tracked. -/
structure Cleaning (c : BenchConfig) (s t : Run Session σ) (closing killing : List (Happening Session)) : Prop where
  history : t.history = s.history ++ closing ++ killing
  closing_closes : Closing s.own.processes closing
  killing_closes : dealings killing = []
  kills : execs killing = s.own.hosts.map fun host => (host, c.killCommand)
  released : t.own = { s.own with processes := [] }

/-- The command that kills is meant for every bound host as it is. -/
theorem killCommands (c : BenchConfig) (hosts : List String) :
    (Session.commands hosts c.killCommand .tolerant).toOption.getD [] = hosts.map fun host => (host, c.killCommand) := by
  cases hosts <;> rfl

/-- What runs a command on the hosts, and nothing but that: no process is dealt with, and the memory stays. -/
def Executed (commands : List (String × String)) (s t : Run Session σ) : Prop :=
  ∃ h, t.history = s.history ++ h ∧ t.own = s.own ∧ dealings h = [] ∧ execs h = commands

/-- Requests that go to no host change nothing of that. -/
theorem Executed.ask (w : World σ) {commands : List (String × String)} {s t : Run Session σ} {r : Request}
    (hr : r.remote = false) (h : Executed commands s t) : Executed commands s (t.ask w r) := by
  obtain ⟨new, hh, hown, hd, he⟩ := h
  refine ⟨new ++ [.asked r (t.reply w r)], ?_, hown, ?_, ?_⟩
  · rw [Run.history_ask, hh, List.append_assoc]
  · rw [Session.dealings_append, hd]
    simp [dealings, Session.deals, Request.handles_of_local hr]
  · rw [Session.execs_append, he]
    cases r <;> first | exact List.append_nil _ | cases hr

/-- However it ends, a cleanup closes what is tracked and then kills what is left. -/
theorem run_cleanup (w : World σ) (c : BenchConfig) (s : Run Session σ) :
    ∃ closing killing, Cleaning c s ((cleanup c).run w s).2 closing killing := by
  obtain ⟨t, closing, hclose, hown, hh, hclosing⟩ := run_closeProcesses w c s
  obtain ⟨run, hrun, hown', hd, he⟩ := Session.run_run w c.killCommand .tolerant t
  have hkill : Executed (s.own.hosts.map fun host => (host, c.killCommand)) t
      ((Session.run c.killCommand .tolerant).run w t).2 := by
    refine ⟨run, hrun, hown', hd, ?_⟩
    rw [he, killCommands, hown]
  have htold : ∀ r : Request, r.remote = false →
      Keeps w (Executed (s.own.hosts.map fun host => (host, c.killCommand)) t) (.request r : SessionProgram r.Reply) :=
    fun r hr => Keeps.request fun _ h => h.ask w hr
  have hall : Executed (s.own.hosts.map fun host => (host, c.killCommand)) t ((cleanup c).run w s).2 := by
    rw [cleanup, Program.run_andThen_of_returned hclose]
    refine Program.after_andThen hkill fun result u hu => ?_
    rw [hu] at hkill
    split
    · exact ((htold _ rfl).bind fun _ => (htold _ rfl).bind fun _ => Keeps.pure _) u hkill
    · exact ((htold _ rfl).bind fun _ => Keeps.pure _) u hkill
  obtain ⟨killing, hk, hown'', hd, he⟩ := hall
  exact ⟨closing, killing, by rw [hk, hh], hclosing, hd, he, by rw [hown'', hown]⟩

/-! ## Conservation -/

/-- The processes that started are those that were closed together with those that are tracked, each as often. -/
def Balanced (t : Run Session σ) : Prop := (started t.history).Perm (closed t.history ++ t.own.processes)

/-- What has nothing to do with processes keeps the balance. -/
theorem Balanced.quiet {s t : Run Session σ} {h : List (Happening Session)} (hs : Balanced s)
    (hh : t.history = s.history ++ h) (hd : dealings h = []) (hown : t.own.processes = s.own.processes) :
    Balanced t := by
  rw [Balanced, hh, hown, Session.started_append, Session.closed_append, Session.started_of_dealings hd,
    Session.closed_of_dealings hd, List.append_nil, List.append_nil]
  exact hs

theorem balanced_stable (w : World σ) : Session.Stable w Balanced where
  asked s r hr hs := hs.quiet rfl (by simp [dealings, Session.deals, hr]) rfl
  bound s hosts hs := hs.quiet rfl rfl rfl
  aimed s hosts hs := hs.quiet rfl rfl rfl

/-- What is closed is what was tracked. -/
theorem balanced_closeProcesses (w : World σ) (c : BenchConfig) : Keeps w Balanced (closeProcesses c) := by
  intro s hs
  obtain ⟨t, h, hrun, hown, hh, hclosing⟩ := run_closeProcesses w c s
  rw [hrun, Balanced, hown, hh, Session.started_append, Session.closed_append, hclosing.closed_eq,
    hclosing.started_eq, List.append_nil, List.append_nil]
  exact hs

/-- What started is tracked. -/
theorem balanced_spawn (w : World σ) (command : String) (options : RunOptions) :
    Keeps w Balanced (Session.spawn command options) := by
  intro s hs
  cases hc : Session.commands s.own.hosts command options with
  | error e =>
    rw [Session.run_spawn_refused w hc]
    exact hs
  | ok commands =>
    obtain ⟨t, h, hrun, hh, -, hclosed, hown⟩ := Session.run_spawn w hc
    rw [hrun, Balanced, hown, hh, Session.started_append, Session.closed_append, hclosed, List.append_nil,
      ← List.append_assoc]
    exact hs.append_right _

/-- The balance holds after any operations. -/
theorem balanced_runAll (w : World σ) (fc : FleetConfig) (c : BenchConfig) (world : σ) (os : List Operation) :
    Balanced (runAll w fc c (fresh world) os) :=
  Stable.runAll (balanced_stable w) c (balanced_spawn w) (balanced_closeProcesses w c) fc os (List.Perm.refl [])

/-! ## Starting processes -/

/-- A start on the bound hosts: each of them was called, in order, what started is tracked behind what was tracked
before, and the start ends by the answers of the hosts. -/
structure Starting (s : Run Session σ) (result : Ending RemoteError Unit × Run Session σ)
    (h : List (Happening Session)) : Prop where
  history : result.2.history = s.history ++ h
  called : (answers h).map Prod.fst = s.own.hosts
  tracked : result.2.own = { s.own with processes := s.own.processes ++ started h }
  closes : closed h = []
  ending : result.1 = Session.startEnding (answers h)

theorem run_starting (w : World σ) {s : Run Session σ} (command : String) {options : RunOptions}
    (hbound : s.own.hosts ≠ []) (hargs : ∀ args ∈ options.hostArgs, args.length = s.own.hosts.length) :
    ∃ h, Starting s ((Session.spawn command options).run w s) h := by
  obtain ⟨commands, hcommands, hfst⟩ := Session.commands_of_bound command hbound hargs
  obtain ⟨t, h, hrun, hh, hspawns, hclosed, hown⟩ := Session.run_spawn w hcommands
  rw [hrun]
  refine ⟨h, hh, ?_, hown, hclosed, rfl⟩
  rw [Session.answers_fst, hspawns, List.map_map, ← hfst]
  rfl

/-- After any operations the processes that started are those that were closed and those that are tracked. A start on
bound hosts tracks what started behind what was tracked before, in the order of the hosts, and ends by their answers;
without hosts, or with arguments in another number, it does nothing and is refused. A cleanup closes what is tracked
before it kills, and leaves nothing tracked. -/
theorem processes_are_tracked_until_closed (w : World σ) (fc : FleetConfig) (c : BenchConfig) :
    (∀ world os, Balanced (runAll w fc c (fresh world) os))
    ∧ (∀ (s : Run Session σ) command (options : RunOptions), s.own.hosts ≠ [] →
        (∀ args ∈ options.hostArgs, args.length = s.own.hosts.length) →
        ∃ h, Starting s ((Session.spawn command options).run w s) h)
    ∧ (∀ (s : Run Session σ) command (options : RunOptions), s.own.hosts = [] →
        (Session.spawn command options).run w s = (.failed .notConnected, s))
    ∧ (∀ (s : Run Session σ) command (options : RunOptions) args, s.own.hosts ≠ [] → options.hostArgs = some args →
        args.length ≠ s.own.hosts.length →
        (Session.spawn command options).run w s = (.failed (.hostArgs s.own.hosts.length args.length), s))
    ∧ ∀ s : Run Session σ, ∃ closing killing, Cleaning c s ((cleanup c).run w s).2 closing killing := by
  refine ⟨balanced_runAll w fc c, fun s command options => run_starting w command, ?_, ?_, run_cleanup w c⟩
  · intro s command options hunbound
    refine Session.run_spawn_refused w ?_
    rw [hunbound]
    rfl
  · intro s command options args hbound hargs hlength
    exact Session.run_spawn_refused w (Session.commands_of_mismatch command hbound hargs hlength)

/-- A world where processes can be started on host `a` only. -/
def startsOnA : World Unit where
  answer r u := (match r with
    | .shell (.spawn "a" ..) => .ok ⟨"a", 1⟩
    | r => r.unanswered, u)

/-- A session that is bound to two hosts, with a process of before. -/
def twoBound : Run Session Unit := ⟨{ hosts := ["b", "a"], processes := [⟨"b", 7⟩] }, (), []⟩

/-- The process on `a` is tracked, and the start fails for `b`. -/
theorem processes_are_tracked_until_closed_on_a :
    Balanced (runAll startsOnA {} {} (fresh ()) [.cleanup])
    ∧ (∃ h, Starting twoBound ((Session.spawn "run" {}).run startsOnA twoBound) h)
    ∧ ((Session.spawn "run" {}).run startsOnA twoBound).2.own.processes = [⟨"b", 7⟩, ⟨"a", 1⟩]
    ∧ (Session.spawn "run" {}).run startsOnA (fresh ()) = (.failed .notConnected, fresh ())
    ∧ (Session.spawn "run" { hostArgs := some [] }).run startsOnA twoBound = (.failed (.hostArgs 2 0), twoBound)
    ∧ ∃ closing killing, Cleaning {} twoBound ((cleanup {}).run startsOnA twoBound).2 closing killing := by
  obtain ⟨hbalanced, hstarting, hunbound, hmismatch, hcleanup⟩ := processes_are_tracked_until_closed startsOnA {} {}
  exact ⟨hbalanced () _, hstarting twoBound "run" {} (by decide) (by simp), by decide, hunbound (fresh ()) "run" {} rfl,
    hmismatch twoBound "run" { hostArgs := some [] } [] (by decide) rfl (by decide), hcleanup twoBound⟩

/-- Without hosts none fails, and a start fails. -/
theorem spawn_fails_without_hosts : ¬∀ (s : Run Session Unit) (command : String) (options : RunOptions),
    ∃ h, Starting s ((Session.spawn command options).run startsOnA s) h := by
  intro hall
  obtain ⟨h, hstarting⟩ := hall (fresh ()) "run" {}
  have hnone : answers h = [] := List.map_eq_nil_iff.mp hstarting.called
  have hending := hstarting.ending
  rw [hnone] at hending
  cases hending

end CloudFleet.Bench
