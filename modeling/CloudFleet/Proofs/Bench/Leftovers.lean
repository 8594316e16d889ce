import CloudFleet.Proofs.Bench.Planning
import CloudFleet.Proofs.Bench.Site

/-!
# Results that are left over

A run is its measuring, its judging and its filing (`runBenchmark_eq_filing`). Until it reads its results it runs four
commands to their end on hosts (`asks_measuring`). It cannot tell from them what the hosts hold of earlier runs
(`blind_measuring`), and it removes nothing that they do not remove (`untouched_of_idle`): what is judged is what was
written during the run where something was, and what is left over everywhere else (`results_are_of_this_run_iff`).
-/

set_option autoImplicit false

namespace CloudFleet.Bench

open Program (Ensures)
open Session (RunsOnly asks_log asks_run)

variable {σ : Type}

/-! ## Measuring, judging and filing -/

section Parts

variable (fc : FleetConfig) (c : BenchConfig) (patience : Nat) (f : Fleet) (p : BenchParams)

/-- A run between its launch and the reading of its results. -/
def settling (l : Launch) : BenchProgram Unit := do
  enter .wait
  .info "waiting for protocol run to complete..."
  let now ← Program.request .now
  let _ ← Program.request (.sleep (l.schedule.remaining now))
  .info s!"protocol run should be finished now, waiting {c.postRunGrace.text} more"
  let _ ← Program.request (.sleep c.postRunGrace)
  teardown c
  enter .collect
  .info "collecting results..."

/-- A run until its results are read. -/
def measuring : BenchProgram Launch := do
  let l ← approach fc c patience f p
  launching c p l
  settling c l
  pure l

/-- The results are read, and the run is judged. -/
def judging (l : Launch) : BenchProgram RunRecord := do
  let result ← Program.reportRemote (Session.run (resultCommand c) .tolerant)
  pure (judge (l.record p) result.outcomes)

/-- The judged run is entered into the table of runs, and its logs are collected. -/
def filing (judged : RunRecord) : BenchProgram RunRecord := do
  tellResults judged
  match ← (appendLine c.resultsCsv judged.csvLine).attempt with
  | .error e => .raise ((Report.ofSystem e).within s!"append to {c.resultsCsv}")
  | .ok () =>
    let kept ← collectLogs c judged
    let _ ← Program.ofExcept kept.result
    pure kept.record

theorem collect_eq (r : RunRecord) : collect c r = enter .collect >>= fun _ =>
    .info "collecting results..." >>= fun _ => Program.reportRemote (Session.run (resultCommand c) .tolerant)
      >>= fun result => filing c (judge r result.outcomes) := by
  simp only [collect, collectResults, filing, Program.reportRemote, Program.mapError, Program.andThen_assoc]
  refine congrArg (enter .collect >>= ·) (funext fun _ => congrArg (Program.info _ >>= ·) (funext fun _ => ?_))
  refine congrArg ((Session.run (resultCommand c) .tolerant).attempt >>= ·) (funext fun result => ?_)
  cases result with
  | error e => rfl
  | ok result =>
    show (tellResults (judge r result.outcomes) >>= fun _ => _) >>= _ = tellResults (judge r result.outcomes) >>= _
    simp only [Program.andThen_assoc]
    refine congrArg (tellResults (judge r result.outcomes) >>= ·) (funext fun _ => ?_)
    refine congrArg ((appendLine c.resultsCsv (judge r result.outcomes).csvLine).attempt >>= ·) ?_
    refine funext fun appended => ?_
    cases appended with
    | error e => rfl
    | ok _ => rfl

theorem finishing_eq (l : Launch) :
    finishing c p l = settling c l >>= fun _ => judging c p l >>= filing c := by
  simp only [finishing, settling, collect_eq, judging, Program.andThen_assoc]
  rfl

/-- A run measures, judges and files. -/
theorem runBenchmark_eq_filing : runBenchmark fc c patience f p
    = measuring fc c patience f p >>= fun l => judging c p l >>= filing c := by
  simp only [runBenchmark_eq, measuring, finishing_eq, Program.andThen_assoc]
  rfl

end Parts

/-! ## What is asked before the results are read -/

section Asked

variable {allowed : List String} (fc : FleetConfig) (c : BenchConfig) (patience : Nat) (f : Fleet) (p : BenchParams)

theorem asks_enter (phase : Phase) : (enter phase).Asks (RunsOnly allowed) := asks_log _ _

theorem asks_connect (hm : livenessCommand ∈ allowed) : (connect f).Asks (RunsOnly allowed) := by
  unfold connect
  dsimp only
  split
  · exact (asks_log _ _).bind fun _ => .pure _
  · refine (asks_log _ _).bind fun _ => .bind (.remember _) fun _ => (asks_run rfl rfl rfl hm).bind fun result => ?_
    exact (Program.Asks.each _ fun o => asks_log _ _).bind fun _ => .pure _

theorem asks_closeProcesses : (closeProcesses c).Asks (RunsOnly allowed) := by
  have hrelease : (Session.release : SessionProgram (List Process)).Asks (RunsOnly allowed) :=
    .bind .memory fun _ => .bind (.remember _) fun _ => .pure _
  refine hrelease.bind fun processes => ?_
  split
  · exact .pure _
  · refine (asks_log _ _).bind fun _ => .bind (.each _ fun process => ?_) fun _ => .request trivial
    refine .bind (.request trivial) fun answer => ?_
    cases answer with
    | ok _ => exact .pure _
    | error e => exact asks_log _ _

/-- What follows when killing has ended, by whether it killed something. -/
def shutDown (killed : Bool) : SessionProgram Shutdown :=
  if killed then do
    .warn "forcefully killed at least one running process"
    let _ ← Program.request (.sleep c.shutdownGrace)
    pure .forced
  else do
    .info "graceful shutdown succeeded (or nothing was running)"
    pure .graceful

/-- Kill whatever is left, and tell whether there was something. -/
def killing : SessionProgram Shutdown := do
  let result ← Session.run c.killCommand .tolerant
  shutDown c (result.outcomes.any fun o => o.exitCode == some 0)

theorem asks_shutDown (killed : Bool) : (shutDown c killed).Asks (RunsOnly allowed) := by
  unfold shutDown
  split
  · exact (asks_log _ _).bind fun _ => .bind (.request trivial) fun _ => .pure _
  · exact (asks_log _ _).bind fun _ => .pure _

/-- A run from its beginning to its launch. -/
def preparing : BenchProgram Launch := do
  let s ← Program.memory
  if s.hosts.length ≠ p.numNodes.toNat then
    .bail s!"expected {p.numNodes} running instance(s), found {s.hosts.length}"
  else
    let now ← Program.request .now
    match Schedule.new? now p with
    | none => .crash
    | some schedule =>
      let rounds ← drawRounds p patience []
      tellSchedule schedule (newRecord p schedule s.hosts rounds)
      enter .prepare
      let _ ← Program.reportRemote (Session.run (prepareCommand c) .tolerant)
      pure ⟨schedule, s.hosts, rounds⟩

theorem approach_eq : approach fc c patience f p = begin fc c f p >>= fun _ => preparing c patience p := rfl

theorem asks_preparing (hm : prepareCommand c ∈ allowed) : (preparing c patience p).Asks (RunsOnly allowed) := by
  refine .bind .memory fun own => ?_
  split
  · exact .raise _
  · refine .bind (.request trivial) fun now => ?_
    cases Schedule.new? now p with
    | none => exact .crash
    | some schedule =>
      have htold : ∀ r, (tellSchedule schedule r).Asks (RunsOnly allowed) := fun r =>
        (asks_log _ _).bind fun _ => (asks_log _ _).bind fun _ => (asks_log _ _).bind fun _ => asks_log _ _
      refine (asks_drawRounds (fun _ => trivial) patience p []).bind fun rounds => (htold _).bind fun _ => (asks_enter _).bind fun _ => ?_
      exact ((asks_run rfl rfl rfl hm).mapError _).bind fun _ => .pure _

theorem asks_launching (l : Launch) : (launching c p l).Asks (RunsOnly allowed) :=
  (asks_enter _).bind fun _ => (asks_log _ _).bind fun _ => (Session.asks_spawn _ _).mapError _

theorem asks_settling (l : Launch) (hm : teardownCommand c ∈ allowed) : (settling c l).Asks (RunsOnly allowed) := by
  refine (asks_enter _).bind fun _ => (asks_log _ _).bind fun _ => .bind (.request trivial) fun now => ?_
  refine .bind (.request trivial) fun _ => (asks_log _ _).bind fun _ => .bind (.request trivial) fun _ => ?_
  refine .bind ?_ fun _ => (asks_enter _).bind fun _ => asks_log _ _
  refine (asks_enter _).bind fun _ => (asks_run rfl rfl rfl hm).attempt.bind fun result => ?_
  cases result with
  | ok _ => exact .pure _
  | error e => exact asks_log _ _

/-- All commands that a run without a sync runs to their end before it reads its results. -/
theorem asks_measuring (hsync : p.sync = false) : (measuring fc c patience f p).Asks
    (RunsOnly [livenessCommand, c.killCommand, prepareCommand c, teardownCommand c]) := by
  have hbegin : (begin fc c f p).Asks
      (RunsOnly [livenessCommand, c.killCommand, prepareCommand c, teardownCommand c]) := by
    refine (asks_enter _).bind fun _ => ((asks_connect f (by simp)).mapError _).bind fun connected => ?_
    cases connected with
    | none => exact .raise _
    | some result =>
      refine (asks_enter _).bind fun _ => (((asks_closeProcesses c).bind fun _ =>
        (asks_run rfl rfl rfl (by simp)).bind fun _ => asks_shutDown c _).mapError _).bind fun _ => ?_
      rw [hsync]
      exact .pure _
  rw [measuring, approach_eq]
  refine (hbegin.bind fun _ => asks_preparing c patience p (by simp)).bind fun l => ?_
  exact (asks_launching c p l).bind fun _ => (asks_settling c l (by simp)).bind fun _ => .pure _

end Asked

/-! ## Measuring cannot tell what is left over -/

section Blind

variable {touch : Touch σ} {w : World σ} {left₁ left₂ : String → Option String} {fc : FleetConfig} {c : BenchConfig}
  {patience : Nat} {f : Fleet} {p : BenchParams}

/-- A command that begins otherwise prints no result. -/
theorem ne_resultCommand {command : String} {first : Char} (h : command.toList.head? = some first)
    (hfirst : first ≠ 'c') : command ≠ resultCommand c := by
  rintro rfl
  rw [resultCommand, String.toList_append] at h
  exact hfirst (Option.some.inj h).symm

theorem livenessCommand_ne : livenessCommand ≠ resultCommand c := ne_resultCommand rfl (by decide : 'd' ≠ 'c')

theorem prepareCommand_ne : prepareCommand c ≠ resultCommand c := by
  refine ne_resultCommand ?_ (by decide : 'p' ≠ 'c')
  simp only [prepareCommand, String.toList_append]
  rfl

theorem teardownCommand_ne : teardownCommand c ≠ resultCommand c := by
  refine ne_resultCommand ?_ (by decide : 'p' ≠ 'c')
  simp only [teardownCommand, String.toList_append]
  rfl

/-- What runs no command but those that print no result cannot tell two sites from each other. -/
theorem blind_of_asks {allowed : List String} (hallowed : resultCommand c ∉ allowed) {ε α : Type}
    {q : Program Session ε α} (hq : q.Asks (RunsOnly allowed)) : Blind c touch w left₁ left₂ q := by
  refine .of_asks (hq.mono fun r hr => ?_)
  cases r with
  | shell call =>
    cases call with
    | exec host command pty =>
      refine beq_false_of_ne ?_
      rintro rfl
      exact hallowed hr
    | _ => rfl
  | _ => rfl

/-- Whether printing succeeds depends on whether there is a file. -/
theorem exitCode_printed (own : Session) (host : String) {file₁ file₂ : Option String}
    (hfiles : file₁.isSome = file₂.isSome) (answer : Except TransportError Output) :
    (Session.outcomeOf own host (printed file₁ answer)).exitCode
      = (Session.outcomeOf own host (printed file₂ answer)).exitCode := by
  cases answer with
  | error e => rfl
  | ok out =>
    cases file₁ <;> cases file₂ <;> first | rfl | cases hfiles

/-- Printing results that are there at the same places leaves two sites alike. -/
theorem blind_printing (hfiles : ∀ host, (left₁ host).isSome = (left₂ host).isSome) :
    Blind c touch w left₁ left₂ (Session.run (resultCommand c) .tolerant >>= fun result =>
      shutDown c (result.outcomes.any fun o => o.exitCode == some 0)) := by
  intro s t h
  have hthere : ∀ host, (s.world.results host).isSome = (t.world.results host).isSome := by
    intro host
    cases htouched : s.world.touched host with
    | true => rw [h.results host htouched]
    | false => rw [(h.left host htouched).1, (h.left host htouched).2, hfiles]
  by_cases hhosts : s.own.hosts = []
  · rw [Program.run_andThen_of_failed (run_unbound _ _ _ hhosts),
      Program.run_andThen_of_failed (run_unbound _ _ _ (h.own ▸ hhosts))]
    exact ⟨rfl, h⟩
  · obtain ⟨u, hu, huworld, hs⟩ := run_results c touch w s hhosts
    obtain ⟨v, hv, hvworld, ht⟩ := run_results c touch w t (h.own ▸ hhosts)
    rw [← h.own, ← h.rest] at hvworld ht
    have halike : Alike left₁ left₂ u v := by
      refine ⟨by rw [hu, hv, h.own], by rw [huworld, hvworld], ?_, ?_, ?_⟩ <;> rw [huworld, hvworld]
      · exact h.touched
      · exact h.results
      · exact h.left
    rw [Program.run_andThen, Program.run_andThen, hs, ht]
    cases Session.gather (calls w (resultCommand c) s.own.hosts s.world.rest).1 with
    | none => exact ⟨rfl, halike⟩
    | some gathered =>
      obtain ⟨time, answers⟩ := gathered
      have houtcomes : ((s.own.hosts.zip answers).map fun x =>
            Session.outcomeOf s.own x.1 (printed (s.world.results x.1) x.2)).any (fun o => o.exitCode == some 0)
          = ((s.own.hosts.zip answers).map fun x =>
            Session.outcomeOf s.own x.1 (printed (t.world.results x.1) x.2)).any fun o => o.exitCode == some 0 := by
        rw [List.any_map, List.any_map]
        refine congrArg (List.any _) (funext fun x => congrArg (· == some 0) ?_)
        exact exitCode_printed s.own x.1 (hthere x.1) x.2
      have hnone : resultCommand c ∉ ([] : List String) := List.not_mem_nil
      dsimp only
      rw [houtcomes]
      exact blind_of_asks hnone (asks_shutDown c _) _ _ (halike.ask touch w rfl).2

/-- Killing is the same everywhere. Where it is a printing of the results, it is so if it succeeds on the same hosts. -/
theorem blind_killing
    (hkill : c.killCommand = resultCommand c → ∀ host, (left₁ host).isSome = (left₂ host).isSome) :
    Blind c touch w left₁ left₂ (killing c) := by
  by_cases hsame : c.killCommand = resultCommand c
  · rw [killing, hsame]
    exact blind_printing (hkill hsame)
  · have hrun : (Session.run c.killCommand .tolerant).Asks (RunsOnly [c.killCommand]) :=
      asks_run rfl rfl rfl List.mem_cons_self
    exact blind_of_asks (by simpa using Ne.symm hsame) (hrun.bind fun _ => asks_shutDown c _)

theorem blind_measuring (hsync : p.sync = false)
    (hkill : c.killCommand = resultCommand c → ∀ host, (left₁ host).isSome = (left₂ host).isSome) :
    Blind c touch w left₁ left₂ (measuring fc c patience f p) := by
  have hliveness : resultCommand c ∉ [livenessCommand] := by simpa using livenessCommand_ne.symm
  have hlater : resultCommand c ∉ [prepareCommand c, teardownCommand c] := by
    simpa using ⟨prepareCommand_ne.symm, teardownCommand_ne.symm⟩
  have hbegin : Blind c touch w left₁ left₂ (begin fc c f p) := by
    refine (blind_of_asks hliveness (asks_enter _)).bind fun _ => ?_
    refine (blind_of_asks hliveness ((asks_connect f List.mem_cons_self).mapError _)).bind fun connected => ?_
    cases connected with
    | none => exact blind_of_asks hliveness (.raise _)
    | some result =>
      refine (blind_of_asks hliveness (asks_enter _)).bind fun _ => ?_
      refine (((blind_of_asks hliveness (asks_closeProcesses c)).bind fun _ => blind_killing hkill).mapError _).bind ?_
      intro _
      rw [hsync]
      exact blind_of_asks hliveness (.pure _)
  rw [measuring, approach_eq]
  refine (hbegin.bind fun _ => blind_of_asks hlater (asks_preparing c patience p (by simp))).bind fun l => ?_
  refine blind_of_asks hlater ((asks_launching c p l).bind fun _ => ?_)
  exact (asks_settling c l (by simp)).bind fun _ => .pure _

end Blind

/-! ## What is judged -/

/-- What a file says: its text, or nothing if there is none. -/
def said (file : Option String) : String := (file.map Text.trim).getD ""

/-- What is recorded of a host whose file says this. -/
def reported (r : RunRecord) (host text : String) : HostResult :=
  if text = "OK" then (if r.roundsOf host = some r.numRounds then .ok else .evil)
  else if text = "FAILED" then .failed
  else .missing text

/-- Different texts are recorded differently. -/
theorem reported_inj {r : RunRecord} {host text text' : String} : reported r host text = reported r host text' ↔
    text = text' := by
  constructor
  · unfold reported
    intro h
    split at h <;> split at h <;> grind
  · rintro rfl
    rfl

theorem reported_missing_iff {r : RunRecord} {host text : String} :
    (∃ found, reported r host text = .missing found) ↔ text ≠ "OK" ∧ text ≠ "FAILED" := by
  unfold reported
  by_cases hok : text = "OK"
  · rw [if_pos hok]
    split <;> simp [hok]
  · rw [if_neg hok]
    by_cases hfailed : text = "FAILED"
    · simp [hfailed]
    · simp [hok, hfailed]

/-- What is recorded of a host, by its file and by whether the host was reached. -/
def recorded (r : RunRecord) (host : String) (file : Option String) : Except TransportError Output → HostResult
  | .ok _ => reported r host (said file)
  | .error _ => .missing ""

theorem hostResult_printed (r : RunRecord) (own : Session) (host : String) (file : Option String)
    (answer : Except TransportError Output) :
    hostResult r (Session.outcomeOf own host (printed file answer)) = recorded r host file answer := by
  cases answer with
  | error e => rfl
  | ok out =>
    cases file with
    | none => rfl
    | some text =>
      simp only [hostResult, recorded, reported, said, printed, Session.outcomeOf, Outcome.isSuccess, Option.map_some,
        Option.getD_some, Option.isNone_none, beq_self_eq_true, Bool.true_and, beq_iff_eq]
      congr

/-- What a host answered when the results were read, where all answers came. -/
def Answered (w : World σ) (c : BenchConfig) (t : Run Session (Site σ)) (host : String) : Prop :=
  ∃ time answers out, Session.gather (calls w (resultCommand c) t.own.hosts t.world.rest).1 = some (time, answers)
    ∧ (host, .ok out) ∈ t.own.hosts.zip answers

/-- A run that goes on from `s` reads its results at `t`, and is judged as the record says. -/
def Judged (w : World σ) (fc : FleetConfig) (c : BenchConfig) (patience : Nat) (f : Fleet) (p : BenchParams)
    (s t : Run Session σ) (r : RunRecord) : Prop :=
  ∃ l u, (measuring fc c patience f p).run w s = (.returned l, t) ∧ (judging c p l).run w t = (.returned r, u)

section Judged

variable {touch : Touch σ} {w : World σ} {c : BenchConfig} {p : BenchParams}

/-- The results that are judged, by what was printed of the files of the hosts. -/
theorem results_judge (r : RunRecord) (own : Session) (files : String → Option String)
    (entries : List (String × Except TransportError Output)) :
    (judge r (entries.map fun x => Session.outcomeOf own x.1 (printed (files x.1) x.2))).results
      = entries.map fun x => (x.1, recorded r x.1 (files x.1) x.2) := by
  have hentry : ∀ x : String × Except TransportError Output,
      ((Session.outcomeOf own x.1 (printed (files x.1) x.2)).host,
          hostResult r (Session.outcomeOf own x.1 (printed (files x.1) x.2)))
        = (x.1, recorded r x.1 (files x.1) x.2) := by
    intro x
    rw [hostResult_printed]
    cases x.2 <;> rfl
  show List.map _ _ = _
  rw [List.map_map]
  exact List.map_congr_left fun x _ => hentry x

theorem verdict_judge (r : RunRecord) (outcomes : List Outcome) : (judge r outcomes).verdict
    = some (if (judge r outcomes).results.any fun entry => entry.2.isFailure then .failed else .ok) := rfl

/-- A run is judged where all hosts answer, by their files and by who was reached. -/
theorem run_judging (touch : Touch σ) (w : World σ) (c : BenchConfig) (p : BenchParams) (l : Launch)
    (t : Run Session (Site σ)) (hhosts : t.own.hosts ≠ []) :
    ((judging c p l).run (site c touch w) t).1
      = match Session.gather (calls w (resultCommand c) t.own.hosts t.world.rest).1 with
        | some (_, answers) => .returned (judge (l.record p) ((t.own.hosts.zip answers).map fun x =>
            Session.outcomeOf t.own x.1 (printed (t.world.results x.1) x.2)))
        | none => .stalled := by
  obtain ⟨u, -, -, hrun⟩ := run_results c touch w t hhosts
  rw [judging, Program.reportRemote, Program.mapError, Program.andThen_assoc, Program.run_andThen, Program.run_attempt,
    hrun]
  cases Session.gather (calls w (resultCommand c) t.own.hosts t.world.rest).1 <;> rfl

variable {fc : FleetConfig} {patience : Nat} {f : Fleet} {s t : Run Session (Site σ)} {r : RunRecord}

/-- A judged run measured, and all hosts answered when the results were read. -/
theorem answers_of_judged (h : Judged (site c touch w) fc c patience f p s t r) :
    ∃ l time answers, (measuring fc c patience f p).run (site c touch w) s = (.returned l, t) ∧ t.own.hosts ≠ []
      ∧ Session.gather (calls w (resultCommand c) t.own.hosts t.world.rest).1 = some (time, answers)
      ∧ r = judge (l.record p) ((t.own.hosts.zip answers).map fun x =>
          Session.outcomeOf t.own x.1 (printed (t.world.results x.1) x.2)) := by
  obtain ⟨l, u, hm, hj⟩ := h
  have hhosts : t.own.hosts ≠ [] := by
    intro hnone
    rw [judging, Program.reportRemote, Program.mapError, Program.andThen_assoc, Program.run_andThen,
      Program.run_attempt, run_unbound _ _ _ hnone] at hj
    cases hj
  have hrun := run_judging touch w c p l t hhosts
  rw [hj] at hrun
  cases hg : Session.gather (calls w (resultCommand c) t.own.hosts t.world.rest).1 with
  | none =>
    rw [hg] at hrun
    cases hrun
  | some gathered =>
    obtain ⟨time, answers⟩ := gathered
    rw [hg] at hrun
    cases hrun
    exact ⟨l, time, answers, hm, hhosts, rfl, rfl⟩

/-- Recordings of two files agree exactly if the files say the same, or the host was not reached. -/
theorem recorded_eq_iff {r : RunRecord} {host : String} {file₁ file₂ : Option String}
    {answer : Except TransportError Output} : recorded r host file₁ answer = recorded r host file₂ answer
      ↔ ∀ out, answer = .ok out → said file₁ = said file₂ := by
  cases answer with
  | error e => exact iff_of_true rfl nofun
  | ok out => exact reported_inj.trans ⟨fun h _ _ => h, fun h => h out rfl⟩

/-- Two judgements give the same results exactly if the files of all hosts that were reached say the same. -/
theorem results_eq_iff (r : RunRecord) (own : Session) (files₁ files₂ : String → Option String)
    (entries : List (String × Except TransportError Output)) :
    (judge r (entries.map fun x => Session.outcomeOf own x.1 (printed (files₁ x.1) x.2))).results
        = (judge r (entries.map fun x => Session.outcomeOf own x.1 (printed (files₂ x.1) x.2))).results
      ↔ ∀ host out, (host, .ok out) ∈ entries → said (files₁ host) = said (files₂ host) := by
  rw [results_judge, results_judge, List.map_inj_left]
  constructor
  · intro hsame host out hm
    exact recorded_eq_iff.mp (Prod.mk.inj (hsame _ hm)).2 out rfl
  · rintro hsame ⟨host, answer⟩ hm
    refine Prod.ext rfl (recorded_eq_iff.mpr ?_)
    rintro out rfl
    exact hsame host out hm

/-- A host is recorded with a result that is missing. -/
def RecordedMissing (r : RunRecord) (host : String) : Prop :=
  host ∈ r.results.map Prod.fst ∧ ∀ result, (host, result) ∈ r.results → ∃ found, result = .missing found

/-- A run with a missing result has failed. -/
theorem failed_of_missing (r : RunRecord) (outcomes : List Outcome) {host : String}
    (h : RecordedMissing (judge r outcomes) host) : (judge r outcomes).verdict = some .failed := by
  obtain ⟨hrecorded, hall⟩ := h
  obtain ⟨⟨_, result⟩, hm, rfl⟩ := List.mem_map.mp hrecorded
  obtain ⟨found, rfl⟩ := hall result hm
  rw [verdict_judge, if_pos (List.any_eq_true.mpr ⟨_, hm, rfl⟩)]

/-- A host is recorded with a missing result exactly if it was not reached, or its file says nothing of success or
failure. -/
theorem recordedMissing_iff (r : RunRecord) (own : Session) (files : String → Option String) {hosts : List String}
    {answers : List (Except TransportError Output)} (hlength : answers.length = hosts.length) {host : String}
    (hm : host ∈ hosts) : RecordedMissing (judge r ((hosts.zip answers).map fun x =>
        Session.outcomeOf own x.1 (printed (files x.1) x.2))) host
      ↔ ((∃ out, (host, .ok out) ∈ hosts.zip answers) → said (files host) ≠ "OK" ∧ said (files host) ≠ "FAILED") := by
  rw [RecordedMissing, results_judge]
  constructor
  · rintro ⟨-, hall⟩ ⟨out, hout⟩
    exact reported_missing_iff.mp (hall _ (List.mem_map.mpr ⟨_, hout, rfl⟩))
  · intro hneither
    refine ⟨?_, fun result hresult => ?_⟩
    · rw [List.map_map]
      show host ∈ (hosts.zip answers).map Prod.fst
      rw [List.map_fst_zip (Nat.le_of_eq hlength.symm)]
      exact hm
    · obtain ⟨⟨_, answer⟩, hentry, heq⟩ := List.mem_map.mp hresult
      cases heq
      cases answer with
      | error e => exact ⟨"", rfl⟩
      | ok out => exact reported_missing_iff.mpr (hneither ⟨out, hentry⟩)

end Judged

/-! ## Results are those of this run or those that are left over -/

section Leftovers

variable (touch : Touch σ) (w : World σ) (fc : FleetConfig) (c : BenchConfig) (patience : Nat) (f : Fleet)
  (p : BenchParams) (own : Session) (rest : σ) (left₁ left₂ : String → Option String)

/-- Filing keeps what was judged. -/
theorem filing_ensures (judged : RunRecord) (s : Run Session σ) :
    Ensures w (filing c judged) s (fun r _ => r.results = judged.results ∧ r.verdict = judged.verdict)
      fun _ _ => True := by
  refine (Ensures.anyhow _).bind fun _ s _ => (Ensures.anyhow _).bind fun appended s _ => ?_
  cases appended with
  | error e => exact Ensures.raise trivial
  | ok _ =>
    refine .bind (Q := fun kept _ => kept.record.results = judged.results ∧ kept.record.verdict = judged.verdict) ?_
      fun kept s hkept => (Ensures.anyhow _).bind fun _ s _ => Ensures.pure hkept
    unfold collectLogs
    refine (Ensures.anyhow _).bind fun dir s _ => ?_
    cases dir with
    | error e => exact Ensures.pure ⟨rfl, rfl⟩
    | ok dir =>
      refine (Ensures.anyhow _).bind fun written s _ => ?_
      cases written <;> exact Ensures.pure ⟨rfl, rfl⟩

/-- A run that returns was judged as its record says. -/
theorem judged_of_returned {s u : Run Session σ} {r : RunRecord}
    (h : (runBenchmark fc c patience f p).run w s = (.returned r, u)) :
    ∃ t judged, Judged w fc c patience f p s t judged ∧ r.results = judged.results ∧ r.verdict = judged.verdict := by
  rw [runBenchmark_eq_filing, Program.run_andThen] at h
  cases hm : (measuring fc c patience f p).run w s with
  | mk ending t =>
    rw [hm] at h
    cases ending with
    | returned l =>
      dsimp only at h
      rw [Program.run_andThen] at h
      cases hj : (judging c p l).run w t with
      | mk ending v =>
        rw [hj] at h
        cases ending with
        | returned judged => exact ⟨t, judged, ⟨l, v, hm, hj⟩, (filing_ensures w c judged v).of_returned h⟩
        | _ => cases h
    | _ => cases h

/-- A host whose file none of the commands of a run touches, and nothing else, is not touched. -/
theorem untouched_of_idle (hsync : p.sync = false) {host : String}
    (hidle : ∀ r reply after, RunsOnly [livenessCommand, c.killCommand, prepareCommand c, teardownCommand c] r →
      touch r reply after host = none) :
    ((measuring fc c patience f p).run (site c touch w) (Site.begin own rest left₁)).2.world.touched host = false := by
  refine (asks_measuring fc c patience f p hsync).keeps
    (I := fun t : Run Session (Site σ) => t.world.touched host = false) ?_ ?_ _ rfl
  · intro r t hr ht
    show (t.world.after c touch r _ _).touched host = false
    unfold Site.after
    split
    · exact ht
    · dsimp only
      rw [ht, hidle r _ _ hr]
      rfl
  · exact fun ch t ht => ht

/-- A run that returns a record was judged as it says. A run without a sync cannot tell what is left over of earlier
runs until it reads its results, at `t₁`, unless killing tells whether something is left. Two runs that differ in what
is left over give the same results and the same verdict exactly if what is left over says the same on every host that
answers and whose file was neither written nor removed during the run. Such a host is recorded with a missing result
exactly if what is left over says neither `OK` nor `FAILED`, and then the run has failed. Nothing is removed but by one
of the four commands of a run: where these and the workload leave a file alone, it is what is left over. -/
theorem results_are_of_this_run_iff (hsync : p.sync = false)
    (hkill : c.killCommand = resultCommand c → ∀ host, (left₁ host).isSome = (left₂ host).isSome) :
    (∀ r u, (runBenchmark fc c patience f p).run (site c touch w) (Site.begin own rest left₁) = (.returned r, u) →
      ∃ t₁ r₁, Judged (site c touch w) fc c patience f p (Site.begin own rest left₁) t₁ r₁
        ∧ r.results = r₁.results ∧ r.verdict = r₁.verdict)
    ∧ ∀ t₁ r₁, Judged (site c touch w) fc c patience f p (Site.begin own rest left₁) t₁ r₁ →
      (∃ t₂ r₂, Judged (site c touch w) fc c patience f p (Site.begin own rest left₂) t₂ r₂ ∧ Alike left₁ left₂ t₁ t₂
        ∧ (r₁.results = r₂.results ∧ r₁.verdict = r₂.verdict ↔ ∀ host, Answered w c t₁ host →
            t₁.world.touched host = false → said (left₁ host) = said (left₂ host)))
      ∧ (∀ host ∈ t₁.own.hosts, t₁.world.touched host = false →
        (RecordedMissing r₁ host ↔ (Answered w c t₁ host → said (left₁ host) ≠ "OK" ∧ said (left₁ host) ≠ "FAILED"))
          ∧ (RecordedMissing r₁ host → r₁.verdict = some .failed))
      ∧ ∀ host, (∀ r reply after, RunsOnly [livenessCommand, c.killCommand, prepareCommand c, teardownCommand c] r →
          touch r reply after host = none) → t₁.world.touched host = false := by
  refine ⟨fun r u hreturned => judged_of_returned _ _ _ _ _ _ hreturned, fun t₁ r₁ h => ?_⟩
  obtain ⟨l, time, answers, hm, hhosts, hg, rfl⟩ := answers_of_judged h
  have hblind : Blind c touch w left₁ left₂ (measuring fc c patience f p) := blind_measuring hsync hkill
  obtain ⟨hsame, halike⟩ := hblind _ _ (alike_begin own rest)
  rw [hm] at hsame halike
  -- an answer is one of those that were gathered
  have hanswered : ∀ host, Answered w c t₁ host ↔ ∃ out, (host, .ok out) ∈ t₁.own.hosts.zip answers := by
    intro host
    constructor
    · rintro ⟨time', answers', out, hg', hout⟩
      rw [hg] at hg'
      cases hg'
      exact ⟨out, hout⟩
    · rintro ⟨out, hout⟩
      exact ⟨time, answers, out, hg, hout⟩
  have hlength : answers.length = t₁.own.hosts.length :=
    (Session.gather_eq_some hg).length_eq.symm.trans (length_calls ..)
  refine ⟨?_, fun host hm huntouched => ⟨?_, failed_of_missing _ _⟩, fun host hidle => ?_⟩
  · let t₂ := ((measuring fc c patience f p).run (site c touch w) (Site.begin own rest left₂)).2
    have hjudging := run_judging touch w c p l t₂ (halike.own ▸ hhosts)
    rw [← halike.own, ← halike.rest, hg] at hjudging
    refine ⟨t₂, _, ⟨l, _, Prod.ext hsame.symm rfl, Prod.ext hjudging rfl⟩, halike, ?_⟩
    constructor
    · rintro ⟨hresults, -⟩ host hanswer huntouched
      obtain ⟨out, hout⟩ := (hanswered host).mp hanswer
      have hsaid := (results_eq_iff ..).mp hresults host out hout
      rwa [(halike.left host huntouched).1, (halike.left host huntouched).2] at hsaid
    · intro hleft
      have hresults := (results_eq_iff (l.record p) t₁.own t₁.world.results t₂.world.results
        (t₁.own.hosts.zip answers)).mpr fun host out hout => by
          cases htouched : t₁.world.touched host with
          | true => rw [halike.results host htouched]
          | false =>
            rw [(halike.left host htouched).1, (halike.left host htouched).2]
            exact hleft host ((hanswered host).mpr ⟨out, hout⟩) htouched
      refine ⟨hresults, ?_⟩
      rw [verdict_judge, verdict_judge, hresults]
  · rw [recordedMissing_iff _ _ _ hlength hm, hanswered, (halike.left host huntouched).1]
  · have huntouched := untouched_of_idle touch w fc c patience f p own rest left₁ hsync hidle
    rwa [hm] at huntouched

end Leftovers

/-! ## Hosts on which `rm` removes what it names -/

/-- The words of each command on a line. -/
def commandWords (line : String) : List (List (List Char)) :=
  (line.toList.splitOnP fun ch => ch == ';' || ch == '&').map fun command =>
    (command.splitOnP (· == ' ')).filter fun word => !word.isEmpty

/-- Whether a command on the line removes a file: `rm` names it, or a directory around it. -/
def removes (line path : String) : Bool :=
  (commandWords line).any fun words => words.head? == some "rm".toList && words.tail.any fun word =>
    word == path.toList || (word ++ ['/']).isPrefixOf path.toList

/-- Hosts on which `rm` removes what it names, and a workload that was started writes a result or none. Nothing else
touches a result. -/
def files (c : BenchConfig) (workload : String → σ → Option String) : Touch σ
  | .shell (.exec host command _), .after _ (.ok _), _, other =>
    if host = other ∧ removes command c.resultFile = true then some none else none
  | .shell (.spawn host _ _), .ok _, rest, other => if host = other then (workload host rest).map some else none
  | _, _, _, _ => none

/-- A file is left alone by commands that do not remove it and by a workload that writes no result. -/
theorem files_idle {c : BenchConfig} {workload : String → σ → Option String} {allowed : List String} {host : String}
    (hallowed : ∀ command ∈ allowed, removes command c.resultFile = false) (hidle : ∀ rest, workload host rest = none)
    (r : Request) (reply : r.Reply) (rest : σ) (hr : RunsOnly allowed r) :
    files c workload r reply rest host = none := by
  unfold files
  split
  · rename_i other command pty delay out
    rw [if_neg]
    rintro ⟨-, hremoves⟩
    rw [hallowed command hr] at hremoves
    cases hremoves
  · split
    · rename_i hsame
      rw [hsame, hidle]
      rfl
    · rfl
  · rfl

/-- An obliging world with a workload that writes no result. -/
def idleSite : World (Site Unit) := site {} (files {} fun _ _ => none) obliging

/-- A run that begins where every host holds a result with this text. -/
def holding (text : String) : Run Session (Site Unit) := Site.begin {} () fun _ => some text

/-- What a run of seven rounds on two hosts records there: the results and the verdict. -/
def idleRecord (text : String) : Option (List (String × HostResult) × Option Verdict) :=
  match ((runBenchmark {} {} 0 twoRunning sevenRounds).run idleSite (holding text)).1 with
  | .returned r => some (r.results, r.verdict)
  | .failed _ | .crashed | .stalled => none

theorem returned_of_idleRecord {text : String} {results : List (String × HostResult)} {verdict : Option Verdict}
    (h : idleRecord text = some (results, verdict)) :
    ∃ r u, (runBenchmark {} {} 0 twoRunning sevenRounds).run idleSite (holding text) = (.returned r, u)
      ∧ r.results = results ∧ r.verdict = verdict := by
  unfold idleRecord at h
  cases hrun : (runBenchmark {} {} 0 twoRunning sevenRounds).run idleSite (holding text) with
  | mk ending u =>
    rw [hrun] at h
    cases ending with
    | returned r =>
      cases h
      exact ⟨r, u, rfl, rfl, rfl⟩
    | _ => cases h

theorem idleRecord_ok : idleRecord "OK" = some ([("a", .ok), ("b", .ok)], some .ok) := by decide +kernel

theorem idleRecord_failed : idleRecord "FAILED" = some ([("a", .failed), ("b", .failed)], some .failed) := by
  decide +kernel

theorem hosts_idle :
    ((measuring {} {} 0 twoRunning sevenRounds).run idleSite (holding "OK")).2.own.hosts = ["a", "b"] := by
  decide +kernel

/-- What was left over is told apart: none of the commands of a run removes it by default. -/
theorem results_are_of_this_run_iff_nothing_written : ∃ t₁ r₁ t₂ r₂,
    Judged idleSite {} {} 0 twoRunning sevenRounds (holding "OK") t₁ r₁
      ∧ Judged idleSite {} {} 0 twoRunning sevenRounds (holding "FAILED") t₂ r₂
      ∧ ¬(r₁.results = r₂.results ∧ r₁.verdict = r₂.verdict) := by
  obtain ⟨hreturned, hjudged⟩ := results_are_of_this_run_iff (files {} fun _ _ => none) obliging {} {} 0 twoRunning
    sevenRounds {} () (fun _ => some "OK") (fun _ => some "FAILED") rfl fun h => absurd h (by decide)
  obtain ⟨r, u, hr, -, -⟩ := returned_of_idleRecord idleRecord_ok
  obtain ⟨t₁, r₁, h₁, -, -⟩ := hreturned r u hr
  obtain ⟨⟨t₂, r₂, h₂, -, hiff⟩, -, hidle⟩ := hjudged t₁ r₁ h₁
  refine ⟨t₁, r₁, t₂, r₂, h₁, h₂, fun hsame => ?_⟩
  obtain ⟨l, v, hm, -⟩ := h₁
  have hhosts : t₁.own.hosts = ["a", "b"] := by
    rw [← hosts_idle, idleSite, holding, hm]
  have hanswered : Answered obliging {} t₁ "a" := by
    rw [Answered, hhosts]
    exact ⟨.zero, List.replicate 2 (.ok { exitCode := some 0, stdout := "", stderr := "" }), _, rfl, List.mem_cons_self⟩
  have hsaid := hiff.mp hsame "a" hanswered (hidle "a" (files_idle (by decide +kernel) fun _ => rfl))
  exact absurd hsaid (by decide)

/-- A result that is left over is recorded again, and decides the verdict, where the workload writes none. -/
theorem a_result_of_before_is_recorded_again :
    ¬∀ (fc : FleetConfig) (c : BenchConfig) (patience : Nat) (f : Fleet) (p : BenchParams) (w : World Unit)
      (workload : String → Unit → Option String) (own : Session) (left₁ left₂ : String → Option String)
      (r₁ r₂ : RunRecord) (u₁ u₂ : Run Session (Site Unit)), p.sync = false →
      (runBenchmark fc c patience f p).run (site c (files c workload) w) (Site.begin own () left₁)
        = (.returned r₁, u₁) →
      (runBenchmark fc c patience f p).run (site c (files c workload) w) (Site.begin own () left₂)
        = (.returned r₂, u₂) →
      (r₁.results = r₂.results ∧ r₁.verdict = r₂.verdict)
        ∧ ∀ host ∈ u₁.own.hosts, (∀ rest, workload host rest = none) →
          RecordedMissing r₁ host ∧ r₁.verdict = some .failed := by
  intro hall
  obtain ⟨r₁, u₁, h₁, -, hok⟩ := returned_of_idleRecord idleRecord_ok
  obtain ⟨r₂, u₂, h₂, -, hfailed⟩ := returned_of_idleRecord idleRecord_failed
  obtain ⟨⟨-, hsame⟩, -⟩ := hall {} {} 0 twoRunning sevenRounds obliging (fun _ _ => none) {} _ _ r₁ r₂ u₁ u₂ rfl h₁ h₂
  rw [hok, hfailed] at hsame
  cases hsame

end CloudFleet.Bench
