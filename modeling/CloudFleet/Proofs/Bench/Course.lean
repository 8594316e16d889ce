import CloudFleet.Proofs.Bench.Planning
import CloudFleet.Proofs.Remote.Course

/-!
# The course of a benchmark run

What a run of a benchmark exchanges with hosts and local files, phase after phase (`approaching`, `launched`,
`concluding`), whatever hosts and files answer. It is tolerant in four places, where it goes on when a command has ended
on every host in whatever way (`Session.heard`): killing, preparing, stopping the monitor and reading the results.
Every other step that fails is the last one. `follows_runBenchmark`: a run follows its course.
-/

set_option autoImplicit false

namespace CloudFleet.Bench

open Session (At fetched follows_heard follows_insisted follows_log heard hungUp insisted sent started?)

variable {σ ε : Type}

/-! ## The course -/

/-- A call on the local machine. It is through if it succeeds. -/
def file (call : FileCall) : Course call.Reply := do
  match ← Course.ask (.file call) with
  | .ok reply => pure reply
  | .error _ => Course.stop

/-- A call on the local machine, and what follows if it succeeds. -/
theorem file_bind_iff {call : FileCall} {α : Type} {g : call.Reply → Course α} {h : List Exchange} {y : Option α} :
    (file call >>= g) h y ↔ (∃ e, h = [⟨.file call, .error e⟩] ∧ y = none)
      ∨ ∃ reply rest, h = ⟨.file call, .ok reply⟩ :: rest ∧ g reply rest y := by
  rw [file, Course.bind_assoc]
  constructor
  · rintro (⟨⟨_, -, hnone⟩, -⟩ | ⟨answer, _, rest, rfl, ⟨_, rfl, hanswer⟩, hg⟩)
    · cases hnone
    · cases hanswer
      cases answer with
      | error e =>
        rcases hg with ⟨⟨rfl, -⟩, rfl⟩ | ⟨_, _, _, -, ⟨-, hnone⟩, -⟩
        · exact Or.inl ⟨e, rfl, rfl⟩
        · cases hnone
      | ok reply =>
        rw [Course.pure_bind] at hg
        exact Or.inr ⟨reply, rest, rfl, hg⟩
  · rintro (⟨e, rfl, rfl⟩ | ⟨reply, rest, rfl, hg⟩)
    · exact Or.inr ⟨.error e, [_], [], rfl, ⟨_, rfl, rfl⟩, Or.inl ⟨⟨rfl, rfl⟩, rfl⟩⟩
    · have hafter : (pure reply >>= g) rest y := by
        rw [Course.pure_bind]
        exact hg
      exact Or.inr ⟨.ok reply, [_], rest, rfl, ⟨_, rfl, rfl⟩, hafter⟩

theorem file_some_iff {call : FileCall} {reply : call.Reply} {h : List Exchange} :
    file call h (some reply) ↔ h = [⟨.file call, .ok reply⟩] := by
  rw [← Course.bind_pure (file call), file_bind_iff]
  constructor
  · rintro (⟨_, -, hnone⟩ | ⟨_, _, rfl, rfl, hreply⟩)
    · cases hnone
    · rw [Option.some.inj hreply]
  · rintro rfl
    exact Or.inr ⟨reply, [], rfl, rfl, rfl⟩

/-- A list of nodes is written if its text is another one than that of the file, which need not exist. -/
def listed (path : Path) (text : String) : Course Unit := do
  match ← Course.ask (.file (.readText path)) with
  | .ok current => if current = text then pure () else file (.write path text)
  | .error e => if e.missing then (if "" = text then pure () else file (.write path text)) else Course.stop

/-- The archives are built. -/
def packed (c : BenchConfig) : Course Unit :=
  match c.packScript with
  | none => pure ()
  | some script => do
    let status ← file (.run script)
    Course.demand status.isSuccess

/-- A file is brought up to date on the hosts where it is another one; gives these hosts. -/
def synced (bound : Session) (c : BenchConfig) (localPath : Path) (name : String) : Course (List String) := do
  let bytes ← file (.readBytes localPath)
  let result ← insisted bound (digestCommand (c.remotePath name))
  let outdated := bound.hosts.filter fun host => printedDigest result host != some (Digest.digest bytes)
  if outdated.isEmpty then pure outdated
  else
    sent outdated localPath (c.remotePath name)
    pure outdated

/-- All archives are brought up to date, one after the other. -/
def syncedAll (bound : Session) (c : BenchConfig) : List String → Course (List String)
  | [] => pure []
  | archive :: archives => do
    let outdated ← synced bound c (Path.join c.payloadDir archive) archive
    let rest ← syncedAll bound c archives
    pure (outdated ++ rest)

/-- The archives are unpacked on hosts, if there are any. -/
def unpackedOn (bound : Session) (c : BenchConfig) (hosts : List String) : Course Unit :=
  if hosts.isEmpty then pure ()
  else do
    let _ ← insisted { bound with hosts } (unpackCommand c)

/-- The payload is brought up to date, and unpacked where an archive changed. -/
def delivered (fc : FleetConfig) (c : BenchConfig) (f : Fleet) (bound : Session) : Course Unit := do
  listed fc.nodeListPath (Fleet.nodeListText f.nodeAddresses fc.nodeListPort)
  packed c
  let updated ← syncedAll bound c c.archives
  unpackedOn bound c (bound.hosts.filter fun host => updated.contains host)

/-- The payload is brought up to date, and unpacked where an archive changed, or everywhere; says what was done. -/
def renewed (fc : FleetConfig) (c : BenchConfig) (f : Fleet) (bound : Session) (always : Bool) :
    Course PayloadUpdate := do
  listed fc.nodeListPath (Fleet.nodeListText f.nodeAddresses fc.nodeListPort)
  packed c
  let updated ← syncedAll bound c c.archives
  let unpacked := bound.hosts.filter fun host => always || updated.contains host
  unpackedOn bound c unpacked
  pure ⟨sorted updated, unpacked⟩

/-- Without unpacking everywhere the payload is delivered. -/
theorem delivered_eq (fc : FleetConfig) (c : BenchConfig) (f : Fleet) (bound : Session) :
    delivered fc c f bound = renewed fc c f bound false >>= fun _ => pure () := by
  simp only [delivered, renewed, Course.bind_assoc, Course.pure_bind, Bool.false_or]
  refine congrArg _ (funext fun _ => congrArg _ (funext fun _ => congrArg _ (funext fun updated => ?_)))
  exact (Course.bind_pure _).symm

/-- A session that is bound to the running instances of a fleet. -/
def boundTo (f : Fleet) : Session := ({} : Session).apply (.bound (hostsOf f))

/-- Every host answers, and there are some. -/
def connected (f : Fleet) : Course Unit := do
  Course.demand !(hostsOf f).isEmpty
  let _ ← insisted (boundTo f) livenessCommand

/-- The processes of before are hung up on, and what is left is killed. -/
def cleaned (bound : Session) (c : BenchConfig) (tracked : List Process) : Course Unit := do
  hungUp tracked
  let _ ← heard bound c.killCommand

/-- A run until it is known on which hosts it takes place: every host answers, the processes of before are hung up on,
what is left is killed, and the payload is brought up to date if that is asked for. -/
def readied (fc : FleetConfig) (c : BenchConfig) (f : Fleet) (p : BenchParams) (tracked : List Process) :
    Course Unit := do
  connected f
  cleaned (boundTo f) c tracked
  if p.sync then delivered fc c f (boundTo f) else pure ()

/-- A run up to its launch: there are as many hosts as nodes, there is a plan, and the hosts are prepared. -/
def approaching (fc : FleetConfig) (c : BenchConfig) (f : Fleet) (p : BenchParams) (tracked : List Process)
    (plan : Option (Schedule × List UInt64)) : Course Launch := do
  readied fc c f p tracked
  Course.demand ((boundTo f).hosts.length = p.numNodes.toNat)
  let (schedule, rounds) ← Course.known plan
  let _ ← heard (boundTo f) (prepareCommand c)
  pure ⟨schedule, (boundTo f).hosts, rounds⟩

/-- The workload is started on every host. -/
def launched (c : BenchConfig) (p : BenchParams) (l : Launch) : Course Unit :=
  started? ((l.substituted c p).map fun start => (start.1, start.2.1))

/-- A line is added to a file, which is made with its directory if there is none. -/
def entered (path : Path) (line : String) : Course Unit := do
  match path.parent? with
  | none => pure ()
  | some dir => file (.createDirs dir)
  file (.append path (line ++ "\n"))

/-- The results of the hosts are read, and the run is judged and added to the table of runs. -/
def resulted (bound : Session) (c : BenchConfig) (r : RunRecord) : Course RunRecord := do
  let result ← heard bound (resultCommand c)
  entered c.resultsCsv (judge r result.outcomes).csvLine
  pure (judge r result.outcomes)

/-- The logs of the hosts are copied, file after file, into a directory of this name; gives its path. -/
def fetchedInto (bound : Session) (c : BenchConfig) (name : String) : Course Path := do
  let dir := Path.join c.dataDir name
  let _ ← file (.createDirs dir)
  Course.each (fun remote => fetched bound.hosts remote dir) c.logFiles
  pure dir

/-- The logs of the hosts are copied, file after file, into a directory of the run; gives its path. -/
def downloaded (bound : Session) (c : BenchConfig) (r : RunRecord) : Course Path :=
  fetchedInto bound c r.start.dirName

/-- The logs are copied, and the record is put beside them. -/
def logged (bound : Session) (c : BenchConfig) (r : RunRecord) : Course RunRecord := do
  let dir ← downloaded bound c r
  let kept := { r with dataDir := some dir }
  let _ ← file (.write (Path.join dir recordFile) (Json.pretty kept.toJson))
  pure kept

/-- The monitor is stopped. -/
def stopped (bound : Session) (c : BenchConfig) : Course Unit := do
  let _ ← heard bound (teardownCommand c)

/-- A run after its launch: the monitor is stopped, and results and logs are collected. -/
def concluding (bound : Session) (c : BenchConfig) (p : BenchParams) (l : Launch) : Course RunRecord := do
  stopped bound c
  let judged ← resulted bound c (l.record p)
  logged bound c judged

/-- The course of a run with a plan, or without one. -/
def course (fc : FleetConfig) (c : BenchConfig) (f : Fleet) (p : BenchParams) (tracked : List Process)
    (plan : Option (Schedule × List UInt64)) : Course RunRecord := do
  let l ← approaching fc c f p tracked plan
  launched c p l
  concluding (boundTo f) c p l

/-! ## Runs follow it -/

variable {w : World σ} {s : Run Session σ} {Q : Session → Prop}

/-- A call on the local machine, whatever is made of its failure. -/
theorem follows_call (call : FileCall) (hs : Q s.own) :
    Follows w (Program.request (.file call) : Program Session ε (Except SystemError call.Reply)) s (file call)
      Except.toOption Q := by
  have hasked : Follows w (Program.request (.file call) : Program Session ε (Except SystemError call.Reply)) s
      (Course.ask (.file call)) some Q := .ask rfl hs
  refine .of_run_eq (Program.run_andThen_return w _ s).symm (hasked.andThen fun answer t _ _ ht => ?_)
  cases answer with
  | ok reply => exact .pure ⟨rfl, rfl⟩ ht
  | error e => exact .nothing rfl ⟨rfl, rfl⟩

/-- A call on the local machine whose failure is one of the program. -/
theorem follows_settled {call : FileCall} {f : Except SystemError call.Reply → Program Session ε call.Reply}
    (hok : ∀ reply, f (.ok reply) = pure reply) (herror : ∀ e, ∃ e', f (.error e) = .raise e') (hs : Q s.own) :
    Follows w (Program.request (.file call) >>= f) s (file call) some Q := by
  rw [← Course.bind_pure (file call)]
  refine (follows_call call hs).bind (fun answer reply t _ hreply _ ht => ?_) fun answer t hnone => ?_
  · cases answer with
    | ok _ =>
      cases hreply
      rw [hok]
      exact .pure ⟨rfl, rfl⟩ ht
    | error e => cases hreply
  · cases answer with
    | ok _ => cases hnone
    | error e =>
      obtain ⟨e', he⟩ := herror e
      rw [he]
      exact .raise e'

theorem follows_file (call : FileCall) (hs : Q s.own) :
    Follows w (Program.reportFile call : BenchProgram call.Reply) s (file call) some Q :=
  follows_settled (fun _ => rfl) (fun _ => ⟨_, rfl⟩) hs

theorem follows_listed (fc : FleetConfig) (f : Fleet) (hs : Q s.own) :
    Follows w (Program.within "node list" (Program.reportFleet (f.writeNodeList fc.nodeListPath fc.nodeListPort))) s
      (listed fc.nodeListPath (Fleet.nodeListText f.nodeAddresses fc.nodeListPort)) (fun _ => some ()) Q := by
  have hread : Follows w (Program.request (.file (.readText fc.nodeListPath)) :
        Program Session FleetError (Except SystemError String)) s
      (Course.ask (.file (.readText fc.nodeListPath))) some Q := .ask rfl hs
  refine ((hread.andThen fun answer t _ _ ht => ?_).mapError _).mapError _
  rcases answer with e | current <;> dsimp only
  case' error => split
  case error.isFalse => exact .raise _
  -- whether the file was read or is missing, what follows is the same
  all_goals
    refine .goOn ?_
    split
    · exact .pure ⟨rfl, rfl⟩ ht
    · let write : Request := .file (.write fc.nodeListPath (Fleet.nodeListText f.nodeAddresses fc.nodeListPort))
      have hwrite : Follows w (Program.request write : Program Session FleetError write.Reply) t (Course.ask write) some
          Q := .ask rfl ht
      refine hwrite.andThen fun answer u _ _ hu => ?_
      cases answer with
      | error e => exact .raise _
      | ok _ =>
        have htold : Follows w (Program.request (.announce (.nodeListWritten fc.nodeListPath f.nodeAddresses.length)) :
          Program Session FleetError Unit) u (pure ()) (fun _ => some ()) Q := .tell rfl hu
        exact htold.skip fun _ v hv => .pure ⟨rfl, rfl⟩ hv

theorem follows_packed (c : BenchConfig) (hs : Q s.own) : Follows w (pack c) s (packed c) some Q := by
  unfold pack packed
  cases c.packScript with
  | none => exact .pure ⟨rfl, rfl⟩ hs
  | some script =>
    refine (follows_log _ _ hs).skip fun _ t ht => ?_
    refine ((follows_file (.run script) ht).mapError _).andThen fun status u _ _ hu => ?_
    cases hstatus : ExitStatus.isSuccess status with
    | true =>
      rw [if_pos rfl]
      exact .pure ⟨rfl, rfl⟩ hu
    | false => exact .raise _

/-- Each process is hung up on, with whatever success. -/
theorem follows_hungUp (processes : List Process) (hs : Q s.own) :
    Follows w (Program.each closeProcess processes : Program Session ε Unit) s (hungUp processes) some Q := by
  refine .each processes hs fun process t ht => ?_
  have hcall : Follows w (Session.hangUp process : Program Session ε (Except TransportError Unit)) t
      (Course.ask (.shell (.close process))) some Q := .ask rfl ht
  refine hcall.andThen fun answer u _ _ hu => ?_
  cases answer with
  | ok _ => exact .pure ⟨rfl, rfl⟩ hu
  | error e => exact follows_log _ _ hu

theorem follows_tellResults (r : RunRecord) (hs : Q s.own) :
    Follows w (tellResults r : Program Session ε Unit) s (pure ()) (fun _ => some ()) Q := by
  have hfailed := Follows.tellEach (w := w) (s := s) (Q := Q) (ε := ε)
    (f := fun entry : String × HostResult => .warn s!"{entry.1}: {entry.2.text}")
    (r.results.filter fun entry => entry.2.isFailure) hs fun _ _ ht => follows_log _ _ ht
  refine hfailed.skip fun _ t ht => (follows_log _ _ ht).skip fun _ u hu => ?_
  exact (follows_log _ _ hu).skip fun _ v hv => follows_log _ _ hv

theorem follows_entered (path : Path) (line : String) (hs : Q s.own) :
    Follows w (appendLine path line : Program Session SystemError Unit) s (entered path line) some Q := by
  have happend : ∀ t : Run Session σ, Q t.own → Follows w (do
      let appended ← Program.request (.file (.append path (line ++ "\n")))
      Program.ofExcept appended : Program Session SystemError Unit) t (file (.append path (line ++ "\n"))) some Q :=
    fun t ht => follows_settled (fun _ => rfl) (fun e => ⟨e, rfl⟩) ht
  unfold appendLine entered
  cases path.parent? with
  | none => exact happend s hs
  | some dir =>
    dsimp only
    rw [← Program.andThen_assoc]
    exact (follows_settled (fun _ => rfl) (fun e => ⟨e, rfl⟩) hs).andThen fun _ t _ _ ht => happend t ht

section Bound

variable {bound : Session} (c : BenchConfig)

/-- What is done on some of the bound hosts, in the terms of a benchmark. -/
theorem follows_aimed {α β : Type} (context : String) {hosts : List String} {p : SessionProgram α} {C : Course β}
    {value : α → Option β} (hs : At bound s.own)
    (h : ∀ t : Run Session σ, At { bound with hosts } t.own → Follows w p t C value (At { bound with hosts })) :
    Follows w (Program.within context (Program.reportRemote (Session.narrowed hosts p))) s C value (At bound) := by
  have haimed : At { bound with hosts } (s.change (Session.Change.aimed hosts)).own := ⟨rfl, hs.2⟩
  have hp := (h _ haimed).mono (R := fun own => At bound { own with hosts := s.own.hosts }) fun own ht => ⟨hs.1, ht.2⟩
  exact ((Session.follows_narrowed hp).mapError _).mapError _

theorem follows_unpackedOn (hosts : List String) (hs : At bound s.own) :
    Follows w (unpack c hosts) s (unpackedOn bound c hosts) some (At bound) := by
  unfold unpack unpackedOn
  split
  · exact follows_log _ _ hs
  · rename_i hsome
    refine (follows_log _ _ hs).skip fun _ t ht => ?_
    refine (follows_aimed _ ht fun u hu => ?_).andThen fun _ v _ _ hv => .pure ⟨rfl, rfl⟩ hv
    exact follows_insisted (unpackCommand c) (by simpa using hsome) hu hu

variable (hhosts : bound.hosts ≠ [])
include hhosts

theorem follows_synced (localPath : Path) (name : String) (hs : At bound s.own) :
    Follows w (syncFile c localPath name) s (synced bound c localPath name) some (At bound) := by
  have hread : Follows w (Program.within s!"read {localPath}" (Program.reportFile (.readBytes localPath)) :
      BenchProgram ByteArray) s (file (.readBytes localPath)) some (At bound) :=
    (follows_file (.readBytes localPath) hs).mapError _
  unfold syncFile fileDigest
  rw [Program.andThen_assoc]
  refine hread.andThen fun bytes t _ _ ht => .goOn ?_
  refine (((follows_insisted (digestCommand (c.remotePath name)) hhosts ht ht).mapError _).mapError _).andThen ?_
  intro result u _ _ hu
  refine .consult ?_
  dsimp only
  rw [hu.1]
  split
  · exact (follows_log _ _ hu).skip fun _ v hv => .pure ⟨rfl, rfl⟩ hv
  · rename_i hsome
    refine (follows_log _ _ hu).skip fun _ v hv => ?_
    refine (follows_aimed _ hv fun t ht => ?_).andThen fun _ z _ _ hz => .pure ⟨rfl, rfl⟩ hz
    have hcopy := Session.follows_sent (w := w) (s := t) localPath (c.remotePath name)
      (by simpa [ht.1] using hsome) ht
    rwa [ht.1] at hcopy

theorem follows_syncedAll (archives : List String) (hs : At bound s.own) :
    Follows w (syncArchives c archives) s (syncedAll bound c archives) some (At bound) := by
  induction archives generalizing s with
  | nil => exact .pure ⟨rfl, rfl⟩ hs
  | cons archive archives ih =>
    refine (follows_synced c hhosts _ _ hs).andThen fun outdated t _ _ ht => ?_
    exact (ih ht).andThen fun rest u _ _ hu => .pure ⟨rfl, rfl⟩ hu

omit hhosts in
theorem follows_renewed (fc : FleetConfig) (f : Fleet) (always : Bool) (hsome : bound.hosts ≠ [] ∨ c.archives = [])
    (hs : At bound s.own) :
    Follows w (updatePayload fc c f always) s (renewed fc c f bound always) some (At bound) := by
  -- without archives nobody is asked for a digest
  have hsync : ∀ t : Run Session σ, At bound t.own →
      Follows w (syncArchives c c.archives) t (syncedAll bound c c.archives) some (At bound) := by
    intro t ht
    rcases hsome with hhosts | hnone
    · exact follows_syncedAll c hhosts _ ht
    · rw [hnone]
      exact .pure ⟨rfl, rfl⟩ ht
  unfold updatePayload
  refine (follows_listed fc f hs).bind (fun _ _ t _ _ _ ht => ?_) nofun
  refine (follows_packed c ht).andThen fun _ u _ _ hu => ?_
  refine (hsync u hu).andThen fun updated v _ _ hv => .consult ?_
  rw [hv.1]
  exact (follows_unpackedOn c _ hv).andThen fun _ z _ _ hz => .pure ⟨rfl, rfl⟩ hz

theorem follows_delivered (fc : FleetConfig) (f : Fleet) (hs : At bound s.own) :
    Follows w (updatePayload fc c f false) s (delivered fc c f bound) (fun _ => some ()) (At bound) := by
  rw [delivered_eq]
  exact (follows_renewed c fc f false (Or.inl hhosts) hs).map fun _ => ()

theorem follows_cleaned (hs : At bound s.own) :
    Follows w (cleanup c) s (cleaned bound c s.own.processes) (fun _ => some ()) (At bound) := by
  have hclose : Follows w (closeProcesses c) s (hungUp s.own.processes) some (At bound) := by
    have hrelease : Follows w (Session.release : SessionProgram (List Process)) s (pure s.own.processes) some
        (At bound) := by
      show Follows w (Program.memory >>= fun own => Program.remember Session.Change.released >>= fun _ =>
        pure own.processes) s _ _ _
      exact .consult (.change (.pure ⟨rfl, rfl⟩ hs))
    rw [← Course.pure_bind s.own.processes hungUp]
    refine hrelease.andThen fun processes t _ _ ht => ?_
    split
    · rename_i hnone
      rw [List.isEmpty_iff.mp hnone]
      exact .pure ⟨rfl, rfl⟩ ht
    · refine (follows_log _ _ ht).skip fun _ t ht => ?_
      rw [← Course.bind_pure (hungUp _)]
      exact (follows_hungUp _ ht).andThen fun _ u _ _ hu => .tell rfl hu
  refine hclose.andThen fun _ t _ _ ht => ?_
  refine (follows_heard c.killCommand hhosts ht ht).andThen fun result u _ _ hu => ?_
  split
  · refine (follows_log _ _ hu).skip fun _ v hv => ?_
    have hsleep : Follows w (Program.request (.sleep c.shutdownGrace) : SessionProgram Unit) v (pure ())
        (fun _ => some ()) (At bound) := .tell rfl hv
    exact hsleep.skip fun _ z hz => .pure ⟨rfl, rfl⟩ hz
  · exact (follows_log _ _ hu).skip fun _ v hv => .pure ⟨rfl, rfl⟩ hv

theorem follows_resulted (r : RunRecord) (hs : At bound s.own) :
    Follows w (collectResults c r : BenchProgram (Collected Verdict)) s (resulted bound c r)
      (fun judged => judged.result.toOption.map fun _ => judged.record) (At bound) := by
  refine (follows_log _ _ hs).skip fun _ t ht => ?_
  refine (follows_heard (resultCommand c) hhosts ht ht).attempt.bind ?_ ?_
  · intro result b u _ hresult _ hu
    cases result with
    | error e => cases hresult
    | ok result =>
      cases hresult
      refine (follows_tellResults _ hu).skip fun _ v hv => ?_
      refine (follows_entered _ _ hv).attempt.bind (fun appended b z _ happended _ hz => ?_) fun appended z hnone => ?_
      · cases appended with
        | error e => cases happended
        | ok _ => exact .pure ⟨rfl, rfl⟩ hz
      · cases appended with
        | error e => exact .nothing rfl ⟨rfl, rfl⟩
        | ok _ => cases hnone
  · intro result u hnone
    cases result with
    | error e => exact .nothing rfl ⟨rfl, rfl⟩
    | ok result => cases hnone

theorem follows_fetchedEach (dir : Path) (files : List String) (hs : At bound s.own) :
    Follows w (downloadEach dir files) s (Course.each (fun remote => fetched bound.hosts remote dir) files) some
      (At bound) := by
  induction files generalizing s with
  | nil => exact .pure ⟨rfl, rfl⟩ hs
  | cons remote files ih =>
    refine .consult ((follows_log _ _ hs).skip fun _ t ht => ?_)
    have hcopy := Session.follows_fetched (w := w) (s := t) remote dir (by rw [ht.1]; exact hhosts) ht
    rw [ht.1] at hcopy
    refine ((hcopy.mapError _).mapError _).bind (fun _ _ u _ _ _ hu => ?_) nofun
    have hstep : Follows w (Program.request (.progress .advance) : BenchProgram Unit) u (pure ()) (fun _ => some ())
        (At bound) := .tell rfl hu
    exact hstep.skip fun _ v hv => ih hv

omit hhosts in
theorem follows_downloadLogs (name : String) (hhosts : c.logFiles ≠ [] → bound.hosts ≠ []) (hs : At bound s.own) :
    Follows w (downloadLogs c name) s (fetchedInto bound c name) some (At bound) := by
  have htold : ∀ (step : ProgressStep) (t : Run Session σ), At bound t.own →
      Follows w (Program.request (.progress step) : BenchProgram Unit) t (pure ()) (fun _ => some ()) (At bound) :=
    fun step t ht => .tell rfl ht
  have heach : ∀ (dir : Path) (t : Run Session σ), At bound t.own →
      Follows w (downloadEach dir c.logFiles) t (Course.each (fun remote => fetched bound.hosts remote dir) c.logFiles)
        some (At bound) := by
    intro dir t ht
    by_cases hnone : c.logFiles = []
    · rw [hnone]
      exact .pure ⟨rfl, rfl⟩ ht
    · exact follows_fetchedEach (hhosts hnone) dir c.logFiles ht
  refine ((follows_file (.createDirs (Path.join c.dataDir name)) hs).mapError _).andThen ?_
  intro _ t _ _ ht
  refine (htold _ t ht).skip fun _ u hu => (heach _ u hu).andThen fun _ v _ _ hv => ?_
  exact (htold _ v hv).skip fun _ z hz => .pure ⟨rfl, rfl⟩ hz

theorem follows_logged (r : RunRecord) (hs : At bound s.own) :
    Follows w (collectLogs c r : BenchProgram (Collected Path)) s (logged bound c r)
      (fun kept => kept.result.toOption.map fun _ => kept.record) (At bound) := by
  have hdownload : Follows w (downloadLogs c r.start.dirName) s (downloaded bound c r) some (At bound) :=
    follows_downloadLogs c r.start.dirName (fun _ => hhosts) hs
  refine hdownload.attempt.bind (fun dir b t _ hdir _ ht => ?_) fun dir t hnone => ?_
  · cases dir with
    | error e => cases hdir
    | ok dir =>
      cases hdir
      refine (follows_call _ ht).bind (fun written _ u _ hwritten _ hu => ?_) fun written u hnone => ?_
      · cases written with
        | ok _ => exact .pure ⟨rfl, rfl⟩ hu
        | error e => cases hwritten
      · cases written with
        | ok _ => cases hnone
        | error e => exact .nothing rfl ⟨rfl, rfl⟩
  · cases dir with
    | error e => exact .nothing rfl ⟨rfl, rfl⟩
    | ok dir => cases hnone

theorem follows_stopped (hs : At bound s.own) :
    Follows w (teardown c) s (stopped bound c) some (At bound) := by
  refine Follows.skip (.tell rfl hs) fun _ t ht => ?_
  have hstop := (follows_heard (w := w) (teardownCommand c) hhosts ht ht).map fun _ => ()
  have hstopped : Follows w ((Session.run (teardownCommand c) .tolerant).attempt :
      BenchProgram (Except RemoteError RunResult)) t (stopped bound c) (fun _ => some ()) (At bound) :=
    hstop.unfailing (Session.heard_ensures _ (by rw [ht.1]; exact hhosts)) fun _ => rfl
  rw [← Course.bind_pure (stopped bound c)]
  refine hstopped.bind (fun result _ u _ _ _ hu => ?_) nofun
  cases result with
  | ok _ => exact .pure ⟨rfl, rfl⟩ hu
  | error e => exact follows_log _ _ hu

theorem follows_concluding (p : BenchParams) (l : Launch) (hs : At bound s.own) :
    Follows w (finishing c p l) s (concluding bound c p l) some (At bound) := by
  have htold : ∀ (r : Request), r.reaches = false → ∀ t : Run Session σ, At bound t.own →
      Follows w (Program.request r : BenchProgram r.Reply) t (pure ()) (fun _ => some ()) (At bound) :=
    fun r hr t ht => .tell hr ht
  unfold finishing collect
  refine (htold _ rfl s hs).skip fun _ t ht => (htold _ rfl t ht).skip fun _ t ht => ?_
  refine (htold _ rfl t ht).skip fun now t ht => (htold _ rfl t ht).skip fun _ t ht => ?_
  refine (htold _ rfl t ht).skip fun _ t ht => (htold _ rfl t ht).skip fun _ t ht => ?_
  refine (follows_stopped c hhosts ht).andThen fun _ t _ _ ht => (htold _ rfl t ht).skip fun _ t ht => ?_
  refine (follows_resulted c hhosts _ ht).bind (fun judged r t _ hjudged _ ht => ?_) fun judged t hnone => ?_
  · cases hresult : judged.result with
    | error e =>
      rw [hresult] at hjudged
      cases hjudged
    | ok verdict =>
      rw [hresult] at hjudged
      cases hjudged
      refine .goOn ?_
      rw [← Course.bind_pure (logged bound c _)]
      refine (follows_logged c hhosts _ ht).bind (fun kept r t _ hkept _ ht => ?_) fun kept t hnone => ?_
      · cases hresult : kept.result with
        | error e =>
          rw [hresult] at hkept
          cases hkept
        | ok dir =>
          rw [hresult] at hkept
          cases hkept
          exact .pure ⟨rfl, rfl⟩ ht
      · cases hresult : kept.result with
        | error e => exact .raise e
        | ok dir =>
          rw [hresult] at hnone
          cases hnone
  · cases hresult : judged.result with
    | error e => exact .raise e
    | ok verdict =>
      rw [hresult] at hnone
      cases hnone

end Bound

/-! ## The whole run -/

variable (fc : FleetConfig) (c : BenchConfig) (patience : Nat) (f : Fleet) (p : BenchParams) (s : Run Session σ)

theorem follows_connected : Follows w (connect f) s (connected f) (fun result => result.map fun _ => ())
    fun own => At (boundTo f) own ∧ own.processes = s.own.processes := by
  unfold connect connected
  dsimp only
  split
  · rename_i hnone
    rw [hnone]
    refine Follows.skip (Q := fun _ => True) (.tell rfl trivial) fun _ t _ => ?_
    exact .nothing rfl (Or.inl ⟨⟨rfl, rfl⟩, rfl⟩)
  · rename_i hsome
    have hhosts : (boundTo f).hosts ≠ [] := by
      show (hostsOf f).map Prod.fst ≠ []
      simpa using hsome
    refine .demanded (by simpa using hsome) ?_
    refine Follows.skip (Q := fun own => own.processes = s.own.processes) (.tell rfl rfl) fun _ t ht => ?_
    refine .change ?_
    have hbound : At (boundTo f) (t.change (Session.Change.bound (hostsOf f))).own := ⟨rfl, rfl⟩
    have hown : At (boundTo f) (t.change (Session.Change.bound (hostsOf f))).own
      ∧ (t.change (Session.Change.bound (hostsOf f))).own.processes = s.own.processes := ⟨hbound, ht⟩
    refine (follows_insisted (Q := fun own => At (boundTo f) own ∧ own.processes = s.own.processes) livenessCommand
      hhosts hbound hown).andThen fun result u _ _ hu => ?_
    have htold := Follows.tellEach (w := w) (s := u) (ε := RemoteError)
      (Q := fun own => At (boundTo f) own ∧ own.processes = s.own.processes)
      (f := fun o : Outcome => .info s!"connected to {o.who}: {o.stdout}") result.outcomes hu
      fun _ _ ht => follows_log _ _ ht
    exact htold.skip fun _ v hv => .pure ⟨rfl, rfl⟩ hv

/-- Where a run has come through its first steps there are hosts. -/
theorem hosts_of_connected {h : List Exchange} (hc : connected f h (some ())) : (boundTo f).hosts ≠ [] := by
  obtain ⟨_, before, after, -, hdemand, -⟩ := Course.bind_some_iff.mp hc
  have hsome := (Course.demand_some_iff.mp hdemand).2
  show (hostsOf f).map Prod.fst ≠ []
  simpa using hsome

theorem follows_readied : Follows w (begin fc c f p) s (readied fc c f p s.own.processes) some (At (boundTo f)) := by
  refine Follows.skip (Q := fun own => own = s.own) (.tell rfl rfl) fun _ t ht => ?_
  have hconnect := follows_connected (w := w) f t
  rw [ht] at hconnect
  refine (hconnect.mapError _).bind (fun result _ u h hresult hc hu => ?_) fun result u hnone => ?_
  · have hhosts := hosts_of_connected f hc
    obtain ⟨hu, hprocesses⟩ := hu
    cases result with
    | none => cases hresult
    | some result =>
      refine Follows.skip (Q := fun own => At (boundTo f) own ∧ own.processes = s.own.processes)
        (.tell rfl ⟨hu, hprocesses⟩) fun _ v ⟨hv, hprocesses⟩ => ?_
      have hclean := follows_cleaned (w := w) c hhosts hv
      rw [hprocesses] at hclean
      refine (hclean.mapError _).bind (fun _ _ z _ _ _ hz => ?_) nofun
      split
      · refine Follows.skip (.tell rfl hz) fun _ z hz => ?_
        rw [← Course.bind_pure (delivered fc c f _)]
        exact (follows_delivered c hhosts fc f hz).bind (fun _ _ z _ _ _ hz => .pure ⟨rfl, rfl⟩ hz) nofun
      · exact .pure ⟨rfl, rfl⟩ hz
  · cases result with
    | none => exact .raise _
    | some result => cases hnone

/-- Drawing rounds exchanges nothing. -/
theorem follows_drawRounds {Q : Session → Prop} (hs : Q s.own) :
    Follows w (drawRounds p patience []) s (Course.known (drawn? w patience p s)) some Q := by
  have hasked : (drawRounds p patience []).Asks fun r => r.reaches = false := asks_drawRounds (fun _ => rfl) patience p []
  have hown : Program.Keeps w (fun t => Q t.own) (drawRounds p patience []) :=
    keeps_drawRounds (fun _ _ _ h => h) p patience []
  have hvalue : ((drawRounds p patience []).run w s).1.value? = drawn? w patience p s := by
    rw [run_drawRounds_nil]
    cases drawn? w patience p s <;> rfl
  rw [← hvalue]
  exact .known hasked hown hs

theorem hosts_of_readied {tracked : List Process} {h : List Exchange} (hr : readied fc c f p tracked h (some ())) :
    (boundTo f).hosts ≠ [] := by
  obtain ⟨_, before, after, -, hconnected, -⟩ := Course.bind_some_iff.mp hr
  exact hosts_of_connected f hconnected

/-- What a run plans it plans where its payload is up to date. -/
theorem follows_approaching : Follows w (approach fc c patience f p) s
    (approaching fc c f p s.own.processes (planned? w patience p ((begin fc c f p).run w s).2)) some
    (At (boundTo f)) := by
  unfold approach
  refine (follows_readied fc c f p s).andThen_run fun _ t h hbegin hr ht => .consult ?_
  have hhosts := hosts_of_readied fc c f p hr
  rw [ht.1, hbegin]
  by_cases hlength : (boundTo f).hosts.length = p.numNodes.toNat
  · rw [if_neg (not_not_intro hlength)]
    refine .demanded (decide_eq_true hlength) (.told rfl ?_)
    cases hschedule : Schedule.new? (t.reply w .now) p with
    | none =>
      have hplan : planned? w patience p t = none := by
        rw [planned?, hschedule]
        rfl
      rw [hplan]
      exact .finish rfl (Or.inl ⟨⟨rfl, rfl⟩, rfl⟩)
    | some schedule =>
      have hplan : planned? w patience p t = (drawn? w patience p (t.ask w .now)).map fun rounds =>
          (schedule, rounds) := by
        rw [planned?, hschedule]
        exact Option.map_eq_bind.symm
      rw [hplan, Course.known_map_bind]
      refine (follows_drawRounds patience p (t.ask w .now) ht).andThen fun rounds t _ _ ht => ?_
      have htold : Follows w (tellSchedule schedule (newRecord p schedule (boundTo f).hosts rounds)) t (pure ())
          (fun _ => some ()) (At (boundTo f)) :=
        Follows.skip (.tell rfl ht) fun _ t ht => Follows.skip (.tell rfl ht) fun _ t ht =>
          Follows.skip (.tell rfl ht) fun _ t ht => .tell rfl ht
      refine htold.skip fun _ t ht => Follows.skip (.tell rfl ht) fun _ t ht => ?_
      exact ((follows_heard (prepareCommand c) hhosts ht ht).mapError _).andThen fun _ t _ _ ht => .pure ⟨rfl, rfl⟩ ht
  · rw [if_pos hlength]
    refine .finish rfl ?_
    rw [decide_eq_false hlength]
    exact Or.inl ⟨⟨rfl, rfl⟩, rfl⟩

theorem follows_launched (l : Launch) (hhosts : l.hosts = (boundTo f).hosts) (hbound : (boundTo f).hosts ≠ [])
    (hrounds : l.rounds.length = l.hosts.length) (hs : At (boundTo f) s.own) :
    Follows w (launching c p l) s (launched c p l) some (At (boundTo f)) := by
  refine Follows.skip (.tell rfl hs) fun _ t ht => Follows.skip (.tell rfl ht) fun _ u hu => ?_
  let options : RunOptions := { pty := true, hostArgs := some (l.rounds.map toString) }
  have hargs : options.hostArgs = some (l.rounds.map toString) := rfl
  have hcommands := Session.commands_of_args (launchCommand c p l.schedule) hbound hargs
    (by rw [List.length_map, hrounds, hhosts])
  rw [← hu.1] at hcommands
  have hstart := (Session.follows_started (w := w) hcommands rfl (fun own _ h => h) hu).mapError Report.ofRemote
  have hsame : (u.own.hosts.zip (l.rounds.map toString)).map (fun entry => (entry.1,
      Session.commandFor { pty := true, hostArgs := some (l.rounds.map toString) } (launchCommand c p l.schedule)
        (some entry.2))) = (l.substituted c p).map fun start => (start.1, start.2.1) := by
    rw [hu.1, ← hhosts, List.zip_map_right, List.map_map, Launch.substituted, List.map_map]
    rfl
  rw [hsame] at hstart
  exact hstart

/-- What reaches its launch is launched as planned, on the bound hosts, which are as many as the nodes. -/
theorem launch_of_approaching {tracked : List Process} {plan : Option (Schedule × List UInt64)} {h : List Exchange}
    {l : Launch} (ha : approaching fc c f p tracked plan h (some l)) :
    (boundTo f).hosts ≠ [] ∧ l.hosts = (boundTo f).hosts ∧ l.hosts.length = p.numNodes.toNat
      ∧ plan = some (l.schedule, l.rounds) := by
  obtain ⟨_, _, _, rfl, hready, ha⟩ := Course.bind_some_iff.mp ha
  obtain ⟨_, _, _, rfl, hdemand, ha⟩ := Course.bind_some_iff.mp ha
  obtain ⟨⟨schedule, rounds⟩, _, _, rfl, ⟨-, hplan⟩, ha⟩ := Course.bind_some_iff.mp ha
  obtain ⟨_, _, _, rfl, -, ⟨-, hl⟩⟩ := Course.bind_some_iff.mp ha
  cases hl
  have hlength := of_decide_eq_true (Course.demand_some_iff.mp hdemand).2
  exact ⟨hosts_of_readied fc c f p hready, rfl, hlength, hplan.symm⟩

/-- A run follows its course. -/
theorem follows_runBenchmark : Follows w (runBenchmark fc c patience f p) s
    (course fc c f p s.own.processes (planned? w patience p ((begin fc c f p).run w s).2)) some (At (boundTo f)) := by
  rw [runBenchmark_eq]
  refine (follows_approaching fc c patience f p s).andThen fun l t h hl ht => ?_
  obtain ⟨hbound, hhosts, hnodes, hplan⟩ := launch_of_approaching fc c f p hl
  have hrounds : l.rounds.length = p.numNodes.toNat := length_of_planned w hplan
  refine (follows_launched c f p t l hhosts hbound (hrounds.trans hnodes.symm) ht).andThen fun _ u _ _ hu => ?_
  exact follows_concluding c hbound p l hu

end CloudFleet.Bench
