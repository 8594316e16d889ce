import CloudFleet.Proofs.Bench.Launching
import CloudFleet.Proofs.Remote.Narrowing

/-!
# What a run plans

Between its payload and its preparation a run reads the clock and draws the rounds of its nodes (`planned?`). A draw
asks for words again and again, but no more often than it has patience for; what it makes of them is what an assignment
makes of all of them at once (`run_drawRounds`). Nothing else in a run crashes: a run crashes exactly if it has as many
hosts as nodes and no clock can show its schedule (`Unprepared`).
-/

set_option autoImplicit false

namespace CloudFleet.Bench

open Program (NeverCrashes)
open Session (neverCrashes_copyFrom neverCrashes_copyTo neverCrashes_narrowed neverCrashes_run neverCrashes_spawn)

variable {σ : Type}

/-! ## The plan -/

/-- The random words of so many requests, one after the other. -/
def poured (w : World σ) (count : Nat) : Nat → Run Session σ → List UInt64
  | 0, _ => []
  | times + 1, s => s.reply w (.random count) ++ poured w count times (s.ask w (.random count))

/-- The rounds of the nodes, unless all words that there is patience for are too few. -/
def drawn? (w : World σ) (patience : Nat) (p : BenchParams) (s : Run Session σ) : Option (List UInt64) :=
  (Rounds.assign p.numNodes.toNat p.numRounds p.adversary (poured w (2 * p.numNodes.toNat) patience s)).map Prod.fst

/-- When a run is to start and to end, and the rounds of its nodes. There is no plan where a clock cannot show the one,
or where the words do not suffice for the other. -/
def planned? (w : World σ) (patience : Nat) (p : BenchParams) (s : Run Session σ) :
    Option (Schedule × List UInt64) := do
  let schedule ← Schedule.new? (s.reply w .now) p
  let rounds ← drawn? w patience p (s.ask w .now)
  pure (schedule, rounds)

variable (w : World σ)

/-- As many rounds are planned as there are nodes. -/
theorem length_of_planned {patience : Nat} {p : BenchParams} {s : Run Session σ} {plan : Schedule × List UInt64}
    (h : planned? w patience p s = some plan) : plan.2.length = p.numNodes.toNat := by
  obtain ⟨schedule, -, h⟩ := Option.bind_eq_some_iff.mp h
  obtain ⟨rounds, hdrawn, h⟩ := Option.bind_eq_some_iff.mp h
  obtain ⟨⟨_, rest⟩, hassigned, rfl⟩ := Option.map_eq_some_iff.mp hdrawn
  cases h
  exact Rounds.length_assign hassigned

/-- A draw that has some words makes of those that it asks for what an assignment makes of all of them. -/
theorem run_drawRounds (patience : Nat) (p : BenchParams) (words : List UInt64) (s : Run Session σ) :
    ((drawRounds p patience words).run w s).1
      = match Rounds.assign p.numNodes.toNat p.numRounds p.adversary
          (words ++ poured w (2 * p.numNodes.toNat) patience s) with
        | some (rounds, _) => .returned rounds
        | none => .stalled := by
  induction patience generalizing words s with
  | zero =>
    rw [poured, List.append_nil]
    unfold drawRounds
    cases Rounds.assign p.numNodes.toNat p.numRounds p.adversary words <;> rfl
  | succ patience ih =>
    unfold drawRounds
    cases hassigned : Rounds.assign p.numNodes.toNat p.numRounds p.adversary words with
    | some drawn =>
      -- words that suffice suffice with more
      rw [(Rounds.fed_assign _ _ _).more hassigned]
      rfl
    | none =>
      rw [poured, ← List.append_assoc]
      exact ih _ _

/-- A draw gives the rounds that there are, or waits for ever. -/
theorem run_drawRounds_nil (patience : Nat) (p : BenchParams) (s : Run Session σ) :
    ((drawRounds p patience []).run w s).1 = match drawn? w patience p s with
      | some rounds => .returned rounds
      | none => .stalled := by
  rw [run_drawRounds, List.nil_append, drawn?]
  cases Rounds.assign p.numNodes.toNat p.numRounds p.adversary (poured w (2 * p.numNodes.toNat) patience s) <;> rfl

/-- A draw asks for random words only. -/
theorem asks_drawRounds {P : Request → Prop} (hrandom : ∀ count, P (.random count)) (patience : Nat) (p : BenchParams)
    (words : List UInt64) : (drawRounds p patience words).Asks P := by
  induction patience generalizing words with
  | zero =>
    unfold drawRounds
    split
    · exact .pure _
    · exact .stall
  | succ patience ih =>
    unfold drawRounds
    split
    · exact .pure _
    · exact .bind (.request (hrandom _)) fun more => ih _

/-! ## What never crashes -/

section NeverCrashes

variable (fc : FleetConfig) (c : BenchConfig) (f : Fleet)

theorem neverCrashes_connect : NeverCrashes w (connect f) := by
  unfold connect
  dsimp only
  split
  · exact .bind .request fun _ => .pure _
  · refine .bind .request fun _ => .bind .remember fun _ => .bind (neverCrashes_run w _ _) fun result => ?_
    exact .bind (.each fun _ => .request) fun _ => .pure _

theorem neverCrashes_cleanup : NeverCrashes w (cleanup c) := by
  have hclose : NeverCrashes w (closeProcesses c) := by
    refine .bind (.bind .memory fun _ => .bind .remember fun _ => .pure _) fun processes => ?_
    split
    · exact .pure _
    · refine .bind .request fun _ => .bind (.each fun process => .bind .request fun answer => ?_) fun _ => .request
      cases answer with
      | ok _ => exact .pure _
      | error e => exact .request
  refine .bind hclose fun _ => .bind (neverCrashes_run w _ _) fun result => ?_
  split
  · exact .bind .request fun _ => .bind .request fun _ => .pure _
  · exact .bind .request fun _ => .pure _

theorem neverCrashes_reportFile (call : FileCall) :
    NeverCrashes w (Program.reportFile call : BenchProgram call.Reply) := by
  refine .bind .request fun answer => ?_
  cases answer with
  | ok reply => exact .pure reply
  | error e => exact .raise _

theorem neverCrashes_writeNodeList (path : Path) (port : UInt16) :
    NeverCrashes w (f.writeNodeList path port : Program Session FleetError Bool) := by
  refine .bind .request fun answer => ?_
  -- whether the file was read, is missing or cannot be read, what follows is the same
  rcases answer with e | current <;> dsimp only
  case' error => split
  all_goals
    refine .bind (.finish nofun) fun current => ?_
    split
    · exact .pure _
    · refine .bind .request fun answer => ?_
      cases answer with
      | ok _ => exact .bind .request fun _ => .pure _
      | error e => exact .raise _

theorem neverCrashes_syncFile (localPath : Path) (name : String) : NeverCrashes w (syncFile c localPath name) := by
  have hdigest : NeverCrashes w (fileDigest localPath : BenchProgram String) :=
    .bind ((neverCrashes_reportFile w _).mapError _) fun _ => .pure _
  refine .bind hdigest fun digest => .bind (((neverCrashes_run w _ _).mapError _).mapError _) fun result => ?_
  refine .bind .memory fun s => ?_
  dsimp only
  split
  · exact .bind .request fun _ => .pure _
  · refine .bind .request fun _ => .bind (.mapError (.mapError ?_ _) _) fun _ => .pure _
    exact neverCrashes_narrowed w _ (neverCrashes_copyTo w _ _)

theorem neverCrashes_updatePayload (always : Bool) : NeverCrashes w (updatePayload fc c f always) := by
  have hpack : NeverCrashes w (pack c) := by
    unfold pack
    split
    · exact .pure _
    · refine .bind .request fun _ => .bind ((neverCrashes_reportFile w _).mapError _) fun status => ?_
      split
      · exact .pure _
      · exact .raise _
  have hsync : ∀ archives, NeverCrashes w (syncArchives c archives) := by
    intro archives
    induction archives with
    | nil => exact .pure _
    | cons archive archives ih => exact .bind (neverCrashes_syncFile w c _ _) fun _ => .bind ih fun _ => .pure _
  have hunpack : ∀ hosts, NeverCrashes w (unpack c hosts) := by
    intro hosts
    unfold unpack
    split
    · exact .request
    · refine .bind .request fun _ => .bind (.mapError (.mapError ?_ _) _) fun _ => .pure _
      exact neverCrashes_narrowed w _ (neverCrashes_run w _ _)
  refine .bind (((neverCrashes_writeNodeList w f _ _).mapError _).mapError _) fun _ => .bind hpack fun _ => ?_
  exact .bind (hsync _) fun _ => .bind .memory fun _ => .bind (hunpack _) fun _ => .pure _

/-- No run crashes before its payload is up to date. -/
theorem neverCrashes_begin (p : BenchParams) : NeverCrashes w (begin fc c f p) := by
  refine .bind .request fun _ => .bind ((neverCrashes_connect w f).mapError _) fun result => ?_
  cases result with
  | none => exact .raise _
  | some result =>
    refine .bind .request fun _ => .bind ((neverCrashes_cleanup w c).mapError _) fun _ => ?_
    split
    · exact .bind .request fun _ => .bind (neverCrashes_updatePayload w fc c f false) fun _ => .pure _
    · exact .pure _

theorem neverCrashes_drawRounds (patience : Nat) (p : BenchParams) (words : List UInt64) :
    NeverCrashes w (drawRounds p patience words) := by
  intro s
  rw [run_drawRounds]
  split <;> nofun

theorem neverCrashes_execute (p : BenchParams) (schedule : Schedule) (rounds : List UInt64) :
    NeverCrashes w (execute c p schedule rounds) := by
  refine .bind .request fun _ => .bind ((neverCrashes_run w _ _).mapError _) fun _ => .bind .request fun _ => ?_
  refine .bind .request fun _ => .bind ((neverCrashes_spawn w _ _).mapError _) fun _ => .bind .request fun _ => ?_
  exact .bind .request fun _ => .bind .request fun _ => .bind .request fun _ => .bind .request fun _ =>
    .bind .request fun _ => .pure _

theorem neverCrashes_teardown : NeverCrashes w (teardown c) := by
  refine .bind .request fun _ => .bind (neverCrashes_run w _ _).attempt fun result => ?_
  cases result with
  | ok _ => exact .pure _
  | error e => exact .request

theorem neverCrashes_appendLine (path : Path) (line : String) :
    NeverCrashes w (appendLine path line : Program Session SystemError Unit) := by
  unfold appendLine
  split
  · exact .bind .request fun _ => .ofExcept _
  · exact .bind .request fun _ => .bind (.ofExcept _) fun _ => .bind .request fun _ => .ofExcept _

theorem neverCrashes_collectResults (r : RunRecord) :
    NeverCrashes w (collectResults c r : BenchProgram (Collected Verdict)) := by
  refine .bind .request fun _ => .bind (neverCrashes_run w _ _).attempt fun result => ?_
  cases result with
  | error e => exact .pure _
  | ok result =>
    have htold : ∀ r, NeverCrashes w (tellResults r : BenchProgram Unit) := fun r =>
      .bind (.each fun _ => .request) fun _ => .bind .request fun _ => .bind .request fun _ => .request
    refine .bind (htold _) fun _ => .bind (neverCrashes_appendLine w _ _).attempt fun appended => ?_
    cases appended with
    | error e => exact .pure _
    | ok _ => exact .pure _

theorem neverCrashes_collectLogs (r : RunRecord) :
    NeverCrashes w (collectLogs c r : BenchProgram (Collected Path)) := by
  have heach : ∀ dir files, NeverCrashes w (downloadEach dir files) := by
    intro dir files
    induction files with
    | nil => exact .pure _
    | cons remote files ih =>
      refine .bind .memory fun _ => .bind .request fun _ => ?_
      exact .bind (((neverCrashes_copyFrom w _ _).mapError _).mapError _) fun _ => .bind .request fun _ => ih
  have hdownload : NeverCrashes w (downloadLogs c r.start.dirName) :=
    .bind ((neverCrashes_reportFile w _).mapError _) fun _ => .bind .request fun _ => .bind (heach _ _) fun _ =>
      .bind .request fun _ => .pure _
  refine .bind hdownload.attempt fun dir => ?_
  cases dir with
  | error e => exact .pure _
  | ok dir =>
    refine .bind .request fun written => ?_
    cases written with
    | error e => exact .pure _
    | ok _ => exact .pure _

/-- No run crashes once it has its schedule. -/
theorem neverCrashes_scheduled (patience : Nat) (p : BenchParams) (schedule : Schedule) (hosts : List String) :
    NeverCrashes w (do
      let rounds ← drawRounds p patience []
      let record := newRecord p schedule hosts rounds
      tellSchedule schedule record
      execute c p schedule rounds
      teardown c
      collect c record) := by
  have htold : ∀ r, NeverCrashes w (tellSchedule schedule r) := fun r =>
    .bind .request fun _ => .bind .request fun _ => .bind .request fun _ => .request
  refine .bind (neverCrashes_drawRounds w patience p []) fun rounds => .bind (htold _) fun _ => ?_
  refine .bind (neverCrashes_execute w c p schedule rounds) fun _ => .bind (neverCrashes_teardown w c) fun _ => ?_
  refine .bind .request fun _ => .bind (neverCrashes_collectResults w c _) fun judged => .bind (.ofExcept _) fun _ => ?_
  exact .bind (neverCrashes_collectLogs w c _) fun kept => .bind (.ofExcept _) fun _ => .pure _

end NeverCrashes

/-! ## Runs that are not prepared -/

variable (fc : FleetConfig) (c : BenchConfig) (patience : Nat) (f : Fleet) (p : BenchParams)

/-- How a run ends that is not prepared, though its payload is up to date at `t`: with too few hosts or too many it
fails, where no clock can show its schedule it crashes, and where the words for its rounds run out it waits for ever. -/
structure Unprepared (s t : Run Session σ) : Prop where
  miscounted : t.own.hosts.length ≠ p.numNodes.toNat → (runBenchmark fc c patience f p).run w s
    = (.failed (.ofMessage s!"expected {p.numNodes} running instance(s), found {t.own.hosts.length}"), t)
  unscheduled : t.own.hosts.length = p.numNodes.toNat → Schedule.new? (t.reply w .now) p = none →
    (runBenchmark fc c patience f p).run w s = (.crashed, t.ask w .now)
  undrawn : t.own.hosts.length = p.numNodes.toNat → ∀ schedule, Schedule.new? (t.reply w .now) p = some schedule →
    drawn? w patience p (t.ask w .now) = none → ((runBenchmark fc c patience f p).run w s).1 = .stalled

theorem unprepared_of_begun {s t : Run Session σ} (hbegin : (begin fc c f p).run w s = (.returned (), t)) :
    Unprepared w fc c patience f p s t := by
  refine ⟨fun hcount => ?_, fun hcount hnone => ?_, fun hcount schedule hschedule hnone => ?_⟩ <;>
    rw [runBenchmark, Program.run_andThen_of_returned hbegin,
      Program.run_andThen_of_returned (Program.run_memory w t)]
  · rw [if_pos hcount]
    rfl
  · rw [if_neg (not_not_intro hcount), Program.run_andThen_of_returned (Program.run_request w .now t), hnone]
    rfl
  · rw [if_neg (not_not_intro hcount), Program.run_andThen_of_returned (Program.run_request w .now t), hschedule]
    have hdrawn := run_drawRounds_nil w patience p (t.ask w .now)
    rw [hnone] at hdrawn
    dsimp only
    rw [Program.run_andThen]
    cases hr : (drawRounds p patience []).run w (t.ask w .now) with
    | mk ending u =>
      rw [hr] at hdrawn
      rw [show ending = .stalled from hdrawn]

/-- A run crashes only where no clock can show its schedule. -/
theorem unscheduled_of_crashed {s : Run Session σ} (h : ((runBenchmark fc c patience f p).run w s).1 = .crashed) :
    ∃ t, (begin fc c f p).run w s = (.returned (), t) ∧ t.own.hosts.length = p.numNodes.toNat
      ∧ Schedule.new? (t.reply w .now) p = none := by
  have hbegin := neverCrashes_begin w fc c f p s
  rw [runBenchmark, Program.run_andThen] at h
  cases hr : (begin fc c f p).run w s with
  | mk ending t =>
    rw [hr] at h hbegin
    cases ending with
    | failed e => cases h
    | crashed => exact absurd rfl hbegin
    | stalled => cases h
    | returned _ =>
      refine ⟨t, rfl, ?_⟩
      dsimp only at h
      rw [Program.run_andThen_of_returned (Program.run_memory w t)] at h
      by_cases hcount : t.own.hosts.length = p.numNodes.toNat
      · rw [if_neg (not_not_intro hcount), Program.run_andThen_of_returned (Program.run_request w .now t)] at h
        cases hschedule : Schedule.new? (t.reply w .now) p with
        | none => exact ⟨hcount, rfl⟩
        | some schedule =>
          rw [hschedule] at h
          exact absurd h (neverCrashes_scheduled w c patience p schedule _ _)
      · rw [if_pos hcount] at h
        cases h

end CloudFleet.Bench
