import CloudFleet.Bench.Run
import CloudFleet.Proofs.Fleet.Operation
import CloudFleet.Proofs.Remote.Processes

/-!
# Operations of a benchmark, and runs of many of them

An `Operation` is anything that can be asked of the hosts, with its arguments; `Bench.runAll` performs operations one
after the other in any world, however each of them ends.

What is stable on a session (`Session.Stable`) every operation keeps that neither cleans up nor launches; `cleanup`
keeps it if closing processes does, and `runBenchmark` if starting some does too (`Stable.perform`).
-/

set_option autoImplicit false

namespace CloudFleet.Bench

open Program (Keeps)

variable {σ ε : Type}

/-! ## Operations -/

/-- Something asked of the hosts. -/
inductive Operation
  | connect (f : Fleet)
  | run (script : Script) (options : RunOptions)
  | syncFile (localPath : Path) (name : String)
  | updatePayload (f : Fleet) (always : Bool)
  | cleanup
  | runBenchmark (patience : Nat) (f : Fleet) (p : BenchParams)
  | collectResults (r : RunRecord)
  | collectLogs (r : RunRecord)
  | downloadLogs (name : String)

/-- The program without what it returns. -/
def discarding {α : Type} (p : BenchProgram α) : BenchProgram Unit := do
  let _ ← p
  pure ()

/-- The program of an operation. -/
def Operation.perform (fc : FleetConfig) (c : BenchConfig) : Operation → BenchProgram Unit
  | .connect f => discarding (Program.reportRemote (Bench.connect f))
  | .run script options => discarding (Program.reportRemote (Session.runScript script options))
  | .syncFile localPath name => discarding (Bench.syncFile c localPath name)
  | .updatePayload f always => discarding (Bench.updatePayload fc c f always)
  | .cleanup => discarding (Program.reportRemote (Bench.cleanup c))
  | .runBenchmark patience f p => discarding (Bench.runBenchmark fc c patience f p)
  | .collectResults r => discarding (Bench.collectResults c r)
  | .collectLogs r => discarding (Bench.collectLogs c r)
  | .downloadLogs name => discarding (Bench.downloadLogs c name)

/-- The run after operations one after the other, however each of them ends. -/
def runAll (w : World σ) (fc : FleetConfig) (c : BenchConfig) (s : Run Session σ) (os : List Operation) :
    Run Session σ :=
  os.foldl (fun s o => ((o.perform fc c).run w s).2) s

/-- A session in which nothing happened yet. -/
def fresh (world : σ) : Run Session σ := ⟨{}, world, []⟩

/-! ## Parts that go to no host -/

theorem keeps_reported {w : World σ} {τ : Type} [Memory τ] {I : Run τ σ → Prop} {α : Type} {p : Program τ RemoteError α}
    (hp : Keeps w I p) : Keeps w I (Program.reportRemote p) := hp.mapError

theorem keeps_within {w : World σ} {τ : Type} [Memory τ] {I : Run τ σ → Prop} {α : Type} (context : String)
    {p : Program τ Report α} (hp : Keeps w I p) : Keeps w I (Program.within context p) := hp.mapError

theorem keeps_discarding {w : World σ} {I : Run Session σ → Prop} {α : Type} {p : BenchProgram α} (hp : Keeps w I p) :
    Keeps w I (discarding p) := hp.bind fun _ => Keeps.pure ()

section Local

open Session (keeps_local keeps_log)

variable {w : World σ} {I : Run Session σ → Prop} (hlocal : ∀ s r, r.remote = false → I s → I (s.ask w r))
include hlocal

theorem keeps_reportFile (call : FileCall) : Keeps w I (Program.reportFile call : BenchProgram call.Reply) := by
  refine (keeps_local hlocal rfl).bind fun answer => ?_
  cases answer with
  | ok reply => exact Keeps.pure _
  | error e => exact Keeps.raise _

theorem keeps_fileDigest (path : Path) : Keeps w I (Bench.fileDigest path : BenchProgram String) :=
  (keeps_within _ (keeps_reportFile hlocal _)).bind fun _ => Keeps.pure _

theorem keeps_nodeList (fc : FleetConfig) (f : Fleet) :
    Keeps w I (Program.within "node list" (Program.reportFleet (f.writeNodeList fc.nodeListPath fc.nodeListPort))) :=
  (Fleet.keeps_writeNodeList (fun s _ => hlocal s _ rfl) (fun s _ _ => hlocal s _ rfl) f _ _).mapError.mapError

theorem keeps_pack (c : BenchConfig) : Keeps w I (Bench.pack c) := by
  unfold Bench.pack
  split
  · exact Keeps.pure _
  · refine (keeps_log hlocal _ _).bind fun _ => (keeps_within _ (keeps_reportFile hlocal _)).bind fun status => ?_
    split
    · exact Keeps.pure _
    · exact Keeps.raise _

theorem keeps_appendLine (path : Path) (line : String) :
    Keeps w I (Bench.appendLine path line : Program Session SystemError Unit) := by
  have hwrite : Keeps w I (do
      let appended ← Program.request (.file (.append path (line ++ "\n")))
      Program.ofExcept appended : Program Session SystemError Unit) :=
    (keeps_local hlocal rfl).bind fun _ => Keeps.ofExcept _
  unfold Bench.appendLine
  split
  · exact hwrite
  · refine (keeps_local hlocal rfl).bind fun made => ?_
    cases made with
    | ok _ => exact hwrite
    | error e => exact Keeps.raise _

theorem keeps_tellResults (r : RunRecord) : Keeps w I (Bench.tellResults r : Program Session ε Unit) := by
  refine (Keeps.each _ fun _ _ => keeps_log hlocal _ _).bind fun _ => ?_
  exact (keeps_log hlocal _ _).bind fun _ => (keeps_log hlocal _ _).bind fun _ => keeps_log hlocal _ _

theorem keeps_enter (phase : Phase) : Keeps w I (Bench.enter phase) := keeps_log hlocal _ _

theorem keeps_drawRounds (p : BenchParams) (patience : Nat) (words : List UInt64) :
    Keeps w I (Bench.drawRounds p patience words) := by
  induction patience generalizing words with
  | zero =>
    unfold Bench.drawRounds
    split
    · exact Keeps.pure _
    · exact Keeps.stall
  | succ patience ih =>
    unfold Bench.drawRounds
    split
    · exact Keeps.pure _
    · exact (keeps_local hlocal rfl).bind fun _ => ih _

theorem keeps_tellSchedule (schedule : Schedule) (r : RunRecord) : Keeps w I (Bench.tellSchedule schedule r) := by
  refine (keeps_log hlocal _ _).bind fun _ => (keeps_log hlocal _ _).bind fun _ => ?_
  exact (keeps_log hlocal _ _).bind fun _ => keeps_log hlocal _ _

end Local

/-! ## Parts that neither start processes nor close them, on the bound hosts -/

section Asked

open Session (keeps_local keeps_log keeps_run keeps_copyFrom)

variable {w : World σ} {I : Run Session σ → Prop} (hasked : ∀ s r, r.handles = false → I s → I (s.ask w r))
include hasked

theorem keeps_collectResults (c : BenchConfig) (r : RunRecord) :
    Keeps w I (Bench.collectResults c r : Program Session ε (Collected Verdict)) := by
  have hlocal := Session.local_of_asked hasked
  refine (keeps_log hlocal _ _).bind fun _ => (keeps_run hasked _ _).attempt.bind fun result => ?_
  cases result with
  | error e => exact Keeps.pure _
  | ok result =>
    refine (keeps_tellResults hlocal _).bind fun _ => (keeps_appendLine hlocal _ _).attempt.bind fun appended => ?_
    cases appended <;> exact Keeps.pure _

theorem keeps_downloadEach (dir : Path) (files : List String) : Keeps w I (Bench.downloadEach dir files) := by
  have hlocal := Session.local_of_asked hasked
  induction files with
  | nil => exact Keeps.pure _
  | cons remote files ih =>
    refine Keeps.memory.bind fun s => (keeps_log hlocal _ _).bind fun _ => ?_
    refine (keeps_within _ (keeps_reported (keeps_copyFrom hasked remote dir))).bind fun _ => ?_
    exact (keeps_local hlocal rfl).bind fun _ => ih

theorem keeps_downloadLogs (c : BenchConfig) (name : String) : Keeps w I (Bench.downloadLogs c name) := by
  have hlocal := Session.local_of_asked hasked
  refine (keeps_within _ (keeps_reportFile hlocal _)).bind fun _ => (keeps_local hlocal rfl).bind fun _ => ?_
  exact (keeps_downloadEach hasked _ _).bind fun _ => (keeps_local hlocal rfl).bind fun _ => Keeps.pure _

theorem keeps_collectLogs (c : BenchConfig) (r : RunRecord) :
    Keeps w I (Bench.collectLogs c r : Program Session ε (Collected Path)) := by
  refine (keeps_downloadLogs hasked c _).attempt.bind fun dir => ?_
  cases dir with
  | error e => exact Keeps.pure _
  | ok dir =>
    refine (keeps_local (Session.local_of_asked hasked) rfl).bind fun written => ?_
    cases written <;> exact Keeps.pure _

theorem keeps_teardown (c : BenchConfig) : Keeps w I (Bench.teardown c) := by
  have hlocal := Session.local_of_asked hasked
  refine (keeps_enter hlocal _).bind fun _ => (keeps_run hasked _ _).attempt.bind fun result => ?_
  cases result with
  | ok _ => exact Keeps.pure _
  | error e => exact keeps_log hlocal _ _

theorem keeps_collect (c : BenchConfig) (r : RunRecord) : Keeps w I (Bench.collect c r) := by
  refine (keeps_enter (Session.local_of_asked hasked) _).bind fun _ => ?_
  refine (keeps_collectResults hasked c r).bind fun judged => (Keeps.ofExcept _).bind fun _ => ?_
  exact (keeps_collectLogs hasked c _).bind fun kept => (Keeps.ofExcept _).bind fun _ => Keeps.pure _

/-- A cleanup does so where closing processes does. -/
theorem keeps_cleanup (c : BenchConfig) (hclose : Keeps w I (Bench.closeProcesses c)) : Keeps w I (Bench.cleanup c) := by
  have hlocal := Session.local_of_asked hasked
  refine hclose.bind fun _ => (keeps_run hasked _ _).bind fun result => ?_
  split
  · exact (keeps_log hlocal _ _).bind fun _ => (keeps_local hlocal rfl).bind fun _ => Keeps.pure _
  · exact (keeps_log hlocal _ _).bind fun _ => Keeps.pure _

end Asked

/-! ## Operations keep what is stable -/

namespace Stable

open Session (Stable keeps_local keeps_log keeps_run keeps_runScript keeps_copyTo keeps_copyFrom)

variable {w : World σ} {I : Run Session σ → Prop} (h : Session.Stable w I)
include h

theorem connect (f : Fleet) : Keeps w I (Bench.connect f) := by
  unfold Bench.connect
  dsimp only
  split
  · exact (keeps_log h.local _ _).bind fun _ => Keeps.pure _
  · refine (keeps_log h.local _ _).bind fun _ => ?_
    refine (Keeps.remember fun s => h.bound s _ : Keeps w I (Session.bind (hostsOf f))).bind fun _ => ?_
    refine (keeps_run h.asked _ _).bind fun result => ?_
    exact (Keeps.each result.outcomes fun _ _ => keeps_log h.local _ _).bind fun _ => Keeps.pure _

theorem syncFile (c : BenchConfig) (localPath : Path) (name : String) : Keeps w I (Bench.syncFile c localPath name) := by
  refine (keeps_fileDigest h.local localPath).bind fun digest => ?_
  refine (keeps_within _ (keeps_reported (keeps_run h.asked _ _))).bind fun result => ?_
  refine Keeps.memory.bind fun s => ?_
  dsimp only
  split
  · exact (keeps_log h.local _ _).bind fun _ => Keeps.pure _
  · refine (keeps_log h.local _ _).bind fun _ => ?_
    have hcopy := h.narrowed (s.hosts.filter fun host => printedDigest result host != some digest)
      (keeps_copyTo h.asked localPath (c.remotePath name))
    exact (keeps_within _ (keeps_reported hcopy)).bind fun _ => Keeps.pure _

theorem syncArchives (c : BenchConfig) (archives : List String) : Keeps w I (Bench.syncArchives c archives) := by
  induction archives with
  | nil => exact Keeps.pure _
  | cons archive archives ih => exact (syncFile h c _ _).bind fun _ => ih.bind fun _ => Keeps.pure _

theorem unpack (c : BenchConfig) (hosts : List String) : Keeps w I (Bench.unpack c hosts) := by
  unfold Bench.unpack
  split
  · exact keeps_log h.local _ _
  · refine (keeps_log h.local _ _).bind fun _ => ?_
    have hrun := h.narrowed hosts (keeps_run h.asked (unpackCommand c) {})
    exact (keeps_within _ (keeps_reported hrun)).bind fun _ => Keeps.pure _

theorem updatePayload (fc : FleetConfig) (c : BenchConfig) (f : Fleet) (always : Bool) :
    Keeps w I (Bench.updatePayload fc c f always) := by
  refine (keeps_nodeList h.local fc f).bind fun _ => (keeps_pack h.local c).bind fun _ => ?_
  refine (syncArchives h c _).bind fun updated => Keeps.memory.bind fun s => ?_
  exact (unpack h c _).bind fun _ => Keeps.pure _

/-! ## Benchmark runs -/

section Closing

variable (c : BenchConfig) (hclose : Keeps w I (Bench.closeProcesses c))
include hclose

theorem begin (fc : FleetConfig) (f : Fleet) (p : BenchParams) : Keeps w I (Bench.begin fc c f p) := by
  refine (keeps_enter h.local _).bind fun _ => (keeps_reported (connect h f)).bind fun connected => ?_
  cases connected with
  | none => exact Keeps.raise _
  | some result =>
    refine (keeps_enter h.local _).bind fun _ => (keeps_reported (keeps_cleanup h.asked c hclose)).bind fun _ => ?_
    split
    · exact (keeps_enter h.local _).bind fun _ => (updatePayload h fc c f false).bind fun _ => Keeps.pure _
    · exact Keeps.pure _

end Closing

section Starting

variable (c : BenchConfig) (hspawn : ∀ command options, Keeps w I (Session.spawn command options))
include hspawn

theorem execute (p : BenchParams) (schedule : Schedule) (rounds : List UInt64) :
    Keeps w I (Bench.execute c p schedule rounds) := by
  refine (keeps_enter h.local _).bind fun _ => (keeps_reported (keeps_run h.asked _ _)).bind fun _ => ?_
  refine (keeps_enter h.local _).bind fun _ => (keeps_log h.local _ _).bind fun _ => ?_
  refine (keeps_reported (hspawn _ _)).bind fun _ => (keeps_enter h.local _).bind fun _ => ?_
  refine (keeps_log h.local _ _).bind fun _ => ?_
  refine (keeps_local h.local rfl).bind fun now => (keeps_local h.local rfl).bind fun _ => ?_
  exact (keeps_log h.local _ _).bind fun _ => (keeps_local h.local rfl).bind fun _ => Keeps.pure _

variable (hclose : Keeps w I (Bench.closeProcesses c))
include hclose

theorem runBenchmark (fc : FleetConfig) (patience : Nat) (f : Fleet) (p : BenchParams) :
    Keeps w I (Bench.runBenchmark fc c patience f p) := by
  refine (begin h c hclose fc f p).bind fun _ => Keeps.memory.bind fun s => ?_
  split
  · exact Keeps.raise _
  · refine (keeps_local h.local rfl).bind fun now => ?_
    split
    · exact Keeps.crash
    · refine (keeps_drawRounds h.local p patience []).bind fun rounds => ?_
      refine (keeps_tellSchedule h.local _ _).bind fun _ => (execute h c hspawn p _ rounds).bind fun _ => ?_
      exact (keeps_teardown h.asked c).bind fun _ => keeps_collect h.asked c _

/-- Every operation keeps what is stable, if closing and starting processes do. -/
theorem perform (fc : FleetConfig) (o : Operation) : Keeps w I (o.perform fc c) := by
  cases o with
  | connect f => exact keeps_discarding (keeps_reported (connect h f))
  | run script options => exact keeps_discarding (keeps_reported (keeps_runScript h.asked script options))
  | syncFile localPath name => exact keeps_discarding (syncFile h c localPath name)
  | updatePayload f always => exact keeps_discarding (updatePayload h fc c f always)
  | cleanup => exact keeps_discarding (keeps_reported (keeps_cleanup h.asked c hclose))
  | runBenchmark patience f p => exact keeps_discarding (runBenchmark h c hspawn hclose fc patience f p)
  | collectResults r => exact keeps_discarding (keeps_collectResults h.asked c r)
  | collectLogs r => exact keeps_discarding (keeps_collectLogs h.asked c r)
  | downloadLogs name => exact keeps_discarding (keeps_downloadLogs h.asked c name)

theorem runAll (fc : FleetConfig) (os : List Operation) {s : Run Session σ} (hs : I s) :
    I (Bench.runAll w fc c s os) := by
  induction os generalizing s with
  | nil => exact hs
  | cons o os ih => exact ih (perform h c hspawn hclose fc o s hs)

end Starting

end Stable

end CloudFleet.Bench
