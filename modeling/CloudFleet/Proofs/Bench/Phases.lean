import CloudFleet.Proofs.Bench.Course

/-!
# The phases of a benchmark run

What the course of a run says of any run: nothing is started unless every host answered and there are as many hosts as
nodes (`Verified`), a run is entered once into the table of runs, after every host started (`Entered`), and its record
is written last, after every log was copied from every host (`Recorded`).
-/

set_option autoImplicit false

namespace CloudFleet

namespace Request

/-- Whether it starts a process. -/
def starts : Request → Bool
  | .shell (.spawn ..) => true
  | _ => false

/-- Whether it adds to a local file. -/
def appends : Request → Bool
  | .file (.append ..) => true
  | _ => false

/-- Whether it writes a local file. -/
def writes : Request → Bool
  | .file (.write ..) => true
  | _ => false

end Request

namespace Bench

open Course (Only)
open Session (fetched heard hungUp insisted sent started?)

variable {σ : Type}

/-! ## Where the marks of a run are made -/

section Only

variable {kind : Exchange → Prop} {bound : Session} {c : BenchConfig}

/-- What leaves no mark of a run is of the kind. -/
structure Plain (kind : Exchange → Prop) : Prop where
  exec : ∀ host command reply, kind ⟨.shell (.exec host command false), reply⟩
  close : ∀ process reply, kind ⟨.shell (.close process), reply⟩
  copyTo : ∀ host localPath remotePath reply, kind ⟨.shell (.copyTo host localPath remotePath), reply⟩
  copyFrom : ∀ host remotePath localPath reply, kind ⟨.shell (.copyFrom host remotePath localPath), reply⟩
  readText : ∀ path reply, kind ⟨.file (.readText path), reply⟩
  readBytes : ∀ path reply, kind ⟨.file (.readBytes path), reply⟩
  createDirs : ∀ path reply, kind ⟨.file (.createDirs path), reply⟩
  run : ∀ program reply, kind ⟨.file (.run program), reply⟩

theorem only_file {call : FileCall} (hcall : ∀ reply, kind ⟨.file call, reply⟩) : Only kind (file call) := by
  refine .bind (.ask hcall) fun answer => ?_
  cases answer with
  | ok reply => exact .pure reply
  | error e => exact .stop

theorem only_started (hspawn : ∀ host command reply, kind ⟨.shell (.spawn host command true), reply⟩)
    (commands : List (String × String)) : Only kind (started? commands) := by
  have hcall : ∀ entry : String × String, Only kind (Course.ask (.shell (.spawn entry.1 entry.2 true))) :=
    fun entry => .ask (hspawn entry.1 entry.2)
  exact .bind (.collect hcall _) fun _ => .demand _

theorem only_packed (hrun : ∀ program reply, kind ⟨.file (.run program), reply⟩) : Only kind (packed c) := by
  unfold packed
  cases c.packScript with
  | none => exact .pure _
  | some script => exact .bind (only_file (hrun script)) fun _ => .demand _

theorem only_listed {path : Path} {text : String} (hread : ∀ reply, kind ⟨.file (.readText path), reply⟩)
    (hlist : ∀ reply, kind ⟨.file (.write path text), reply⟩) : Only kind (listed path text) := by
  have hwrite : ∀ current : String, Only kind (if current = text then pure () else file (.write path text)) := by
    intro current
    split
    · exact .pure _
    · exact only_file hlist
  refine .bind (.ask hread) fun answer => ?_
  cases answer with
  | ok current => exact hwrite current
  | error e =>
    dsimp only
    split
    · exact hwrite ""
    · exact .stop

variable (hplain : Plain kind)
include hplain

theorem only_heard (command : String) : Only kind (heard bound command) := by
  have hcall : ∀ host, Only kind (Course.ask (.shell (.exec host command false))) :=
    fun host => .ask (hplain.exec host command)
  refine .bind (.collect hcall _) fun ends => ?_
  split
  · exact .pure _
  · exact .stop

theorem only_insisted (command : String) : Only kind (insisted bound command) :=
  .bind (only_heard hplain command) fun _ => .bind (.demand _) fun _ => .pure _

theorem only_hungUp (processes : List Process) : Only kind (hungUp processes) :=
  .each (fun process => .bind (.ask (hplain.close process)) fun _ => .pure _) _

theorem only_sent (hosts : List String) (localPath : Path) (remotePath : String) :
    Only kind (sent hosts localPath remotePath) := by
  have hcall : ∀ host, Only kind (Course.ask (.shell (.copyTo host localPath remotePath))) :=
    fun host => .ask (hplain.copyTo host localPath remotePath)
  exact .bind (.collect hcall _) fun _ => .demand _

theorem only_synced (localPath : Path) (name : String) : Only kind (synced bound c localPath name) := by
  refine .bind (only_file (hplain.readBytes localPath)) fun bytes => ?_
  refine .bind (only_insisted hplain _) fun result => ?_
  dsimp only
  split
  · exact .pure _
  · exact .bind (only_sent hplain _ _ _) fun _ => .pure _

theorem only_syncedAll (archives : List String) : Only kind (syncedAll bound c archives) := by
  induction archives with
  | nil => exact .pure _
  | cons archive archives ih => exact .bind (only_synced hplain _ _) fun _ => .bind ih fun _ => .pure _

theorem only_unpackedOn (hosts : List String) : Only kind (unpackedOn bound c hosts) := by
  unfold unpackedOn
  split
  · exact .pure _
  · exact .bind (only_insisted hplain _) fun _ => .pure _

theorem only_connected (f : Fleet) : Only kind (connected f) :=
  .bind (.demand _) fun _ => .bind (only_insisted hplain _) fun _ => .pure _

theorem only_cleaned (tracked : List Process) : Only kind (cleaned bound c tracked) :=
  .bind (only_hungUp hplain _) fun _ => .bind (only_heard hplain _) fun _ => .pure _

/-- Up to its launch a run writes the list of nodes only. -/
theorem only_approaching (fc : FleetConfig) (f : Fleet) (p : BenchParams) (tracked : List Process)
    (plan : Option (Schedule × List UInt64)) (hlist : ∀ reply,
      kind ⟨.file (.write fc.nodeListPath (Fleet.nodeListText f.nodeAddresses fc.nodeListPort)), reply⟩) :
    Only kind (approaching fc c f p tracked plan) := by
  have hdelivered : Only kind (delivered fc c f (boundTo f)) :=
    .bind (only_listed (hplain.readText _) hlist) fun _ => .bind (only_packed hplain.run) fun _ =>
      .bind (only_syncedAll hplain _) fun _ => only_unpackedOn hplain _
  have hreadied : Only kind (readied fc c f p tracked) := by
    refine .bind (only_connected hplain f) fun _ => .bind (only_cleaned hplain tracked) fun _ => ?_
    split
    · exact hdelivered
    · exact .pure _
  exact .bind hreadied fun _ => .bind (.demand _) fun _ => .bind (.known _) fun _ =>
    .bind (only_heard hplain _) fun _ => .pure _

theorem only_resulted (r : RunRecord) (happend : ∀ line reply, kind ⟨.file (.append c.resultsCsv line), reply⟩) :
    Only kind (resulted bound c r) := by
  refine .bind (only_heard hplain _) fun result => .bind ?_ fun _ => .pure _
  unfold entered
  cases c.resultsCsv.parent? with
  | none => exact only_file (happend _)
  | some dir => exact .bind (only_file (hplain.createDirs dir)) fun _ => only_file (happend _)

theorem only_stopped : Only kind (stopped bound c) := .bind (only_heard hplain _) fun _ => .pure _

theorem only_downloaded (r : RunRecord) : Only kind (downloaded bound c r) := by
  have hcall : ∀ remote dir host,
      Only kind (Course.ask (.shell (.copyFrom host remote (Session.copyPath dir host remote)))) :=
    fun remote dir host => .ask (hplain.copyFrom host remote _)
  have hfetched : ∀ remote dir, Only kind (fetched bound.hosts remote dir) :=
    fun remote dir => .bind (.collect (hcall remote dir) _) fun _ => .demand _
  refine .bind (only_file (hplain.createDirs _)) fun _ => ?_
  exact .bind (.each (fun remote => hfetched remote _) _) fun _ => .pure _

end Only

/-! ## What came before a mark -/

/-- Every bound host answered, and there are as many as nodes. -/
structure Verified (f : Fleet) (p : BenchParams) (before : List Exchange) : Prop where
  answered : ∀ host ∈ (boundTo f).hosts, ∃ delay out, out.exitCode = some 0
    ∧ ⟨.shell (.exec host livenessCommand false), .after delay (.ok out)⟩ ∈ before
  counted : (boundTo f).hosts.length = p.numNodes.toNat

/-- What is added to the table of runs is added once, after a process started on every host. -/
structure Entered (c : BenchConfig) (f : Fleet) (before : List Exchange) (e : Exchange) (after : List Exchange) :
    Prop where
  table : ∃ line answer, e = ⟨.file (.append c.resultsCsv line), answer⟩
  started : ∀ host ∈ (boundTo f).hosts, ∃ command process, ⟨.shell (.spawn host command true), .ok process⟩ ∈ before
  once : ∀ e' ∈ after, e'.1.appends = false

/-- The record of a run is written last, after every log was copied from every host; if it could be written, it is that
of the run. -/
structure Recorded (c : BenchConfig) (f : Fleet) (before : List Exchange) (e : Exchange) (after : List Exchange)
    (outcome : Option RunRecord) : Prop where
  copied : ∀ remote ∈ c.logFiles, ∀ host ∈ (boundTo f).hosts, ∃ localPath,
    ⟨.shell (.copyFrom host remote localPath), .ok ()⟩ ∈ before
  last : after = []
  written : ∃ dir r answer, e = ⟨.file (.write (Path.join dir recordFile) (Json.pretty r.toJson)), answer⟩
    ∧ outcome = if answer.isOk then some r else none

section Before

variable {fc : FleetConfig} {c : BenchConfig} {f : Fleet} {p : BenchParams} {tracked : List Process}
  {plan : Option (Schedule × List UInt64)} {l : Launch} {h : List Exchange} {outcome : Option RunRecord}

theorem verified_of_approaching (ha : approaching fc c f p tracked plan h (some l)) : Verified f p h := by
  obtain ⟨-, hhosts, hnodes, -⟩ := launch_of_approaching fc c f p ha
  refine ⟨fun host hm => ?_, hhosts ▸ hnodes⟩
  obtain ⟨_, ready, _, rfl, hready, -⟩ := Course.bind_some_iff.mp ha
  obtain ⟨_, connecting, _, rfl, hconnected, -⟩ := Course.bind_some_iff.mp hready
  obtain ⟨_, _, _, rfl, -, hliveness⟩ := Course.bind_some_iff.mp hconnected
  obtain ⟨_, _, _, rfl, hliveness, -⟩ := Course.bind_some_iff.mp hliveness
  obtain ⟨delay, out, hcode, hended⟩ := Session.insisted_some hliveness hm
  exact ⟨delay, out, hcode, by simp [hended]⟩

/-- Where a launch is through, a process started on every host of the launch. -/
theorem started_of_launched (hl : launched c p l h (some ())) (hlength : l.rounds.length = l.hosts.length)
    {host : String} (hm : host ∈ l.hosts) :
    ∃ command process, ⟨.shell (.spawn host command true), .ok process⟩ ∈ h := by
  obtain ⟨rounds, hzip⟩ := Session.exists_mem_zip hlength hm
  have hentry : ((host, Text.replaceFirst (launchCommand c p l.schedule) hostArgMark (toString rounds)) :
      String × String) ∈ (l.substituted c p).map fun start => (start.1, start.2.1) := by
    rw [Launch.substituted, List.map_map]
    exact List.mem_map.mpr ⟨(host, rounds), hzip, rfl⟩
  obtain ⟨process, hstarted⟩ := Session.all_ok
    (fun (entry : String × String) (answer : Except TransportError Process) =>
      ⟨.shell (.spawn entry.1 entry.2 true), answer⟩) (fun _ _ _ ha => ha) hl hentry
  exact ⟨_, process, hstarted⟩

/-- Whatever starts a process comes after the approach of the run. -/
theorem verified_of_start {before after : List Exchange} {e : Exchange}
    (hc : course fc c f p tracked plan (before ++ e :: after) outcome) (he : e.1.starts = true) : Verified f p before := by
  have hplain : Plain fun e => ¬e.1.starts = true := by
    constructor <;> intros <;> nofun
  obtain ⟨l, early, late, rfl, hl, -⟩ :=
    Course.passed (only_approaching hplain fc f p tracked plan fun _ => nofun) hc he
  obtain ⟨hanswered, hcounted⟩ := verified_of_approaching hl
  refine ⟨fun host hm => ?_, hcounted⟩
  obtain ⟨delay, out, hcode, hmem⟩ := hanswered host hm
  exact ⟨delay, out, hcode, List.mem_append_left _ hmem⟩

/-- A call that is made is this one, or it follows. -/
theorem call_or_later {call : FileCall} {α : Type} {g : call.Reply → Course α} {y : Option α}
    {before after : List Exchange} {e : Exchange} (hc : (file call >>= g) (before ++ e :: after) y) :
    (∃ x, e = ⟨.file call, .error x⟩ ∧ before = [] ∧ after = [] ∧ y = none)
      ∨ (∃ reply, e = ⟨.file call, .ok reply⟩ ∧ before = [] ∧ g reply after y)
      ∨ ∃ reply late, before = ⟨.file call, .ok reply⟩ :: late ∧ g reply (late ++ e :: after) y := by
  rcases file_bind_iff.mp hc with ⟨x, heq, hy⟩ | ⟨reply, rest, heq, hg⟩
  · cases before with
    | nil =>
      obtain ⟨he, hafter⟩ := List.cons.inj heq
      exact Or.inl ⟨x, he, rfl, hafter, hy⟩
    | cons first before => exact absurd (List.cons.inj heq).2 (by simp)
  · cases before with
    | nil =>
      obtain ⟨he, hafter⟩ := List.cons.inj heq
      exact Or.inr (Or.inl ⟨reply, he, rfl, hafter ▸ hg⟩)
    | cons first before =>
      obtain ⟨rfl, rfl⟩ := List.cons.inj heq
      exact Or.inr (Or.inr ⟨reply, before, rfl, hg⟩)

/-- What adds to a file is the entry, and nothing is added after it. -/
theorem append_of_entered {path : Path} {line : String} {α : Type} {g : Course α} {y : Option α}
    {before after : List Exchange} {e : Exchange} (hg : Only (fun e => ¬e.1.appends = true) g)
    (hc : (entered path line >>= fun _ => g) (before ++ e :: after) y) (he : e.1.appends = true) :
    (∃ answer, e = ⟨.file (.append path (line ++ "\n")), answer⟩) ∧ ∀ e' ∈ after, ¬e'.1.appends = true := by
  have happend : ∀ late, (file (.append path (line ++ "\n")) >>= fun _ => g) (late ++ e :: after) y →
      (∃ answer, e = ⟨.file (.append path (line ++ "\n")), answer⟩) ∧ ∀ e' ∈ after, ¬e'.1.appends = true := by
    intro late hc
    rcases call_or_later hc with ⟨x, rfl, -, rfl, -⟩ | ⟨reply, rfl, -, hafter⟩ | ⟨reply, later, -, hlater⟩
    · exact ⟨⟨_, rfl⟩, nofun⟩
    · exact ⟨⟨_, rfl⟩, hg _ _ hafter⟩
    · exact absurd he (hg _ _ hlater e (by simp))
  unfold entered at hc
  cases hparent : path.parent? with
  | none =>
    rw [hparent] at hc
    exact happend before hc
  | some dir =>
    rw [hparent] at hc
    dsimp only at hc
    rw [Course.bind_assoc] at hc
    have hdirs : Only (fun e => ¬e.1.appends = true) (file (.createDirs dir)) := only_file fun _ => nofun
    obtain ⟨_, _, late, -, -, hlate⟩ := Course.passed hdirs hc he
    exact happend late hlate

/-- Whatever adds to a file is the entry in the table of runs. -/
theorem entered_of_append {before after : List Exchange} {e : Exchange}
    (hrounds : ∀ planned ∈ plan, planned.2.length = p.numNodes.toNat)
    (hc : course fc c f p tracked plan (before ++ e :: after) outcome) (he : e.1.appends = true) :
    Entered c f before e after := by
  have hplain : Plain fun e => ¬e.1.appends = true := by
    constructor <;> intros <;> nofun
  obtain ⟨l, early, late, rfl, hl, hc⟩ := Course.passed (only_approaching hplain fc f p tracked plan fun _ => nofun) hc he
  obtain ⟨-, hhosts, hnodes, hplan⟩ := launch_of_approaching fc c f p hl
  have hlaunch : Only (fun e => ¬e.1.appends = true) (launched c p l) := only_started (fun _ _ _ => nofun) _
  obtain ⟨_, launching, late, rfl, hlaunched, hc⟩ := Course.passed hlaunch hc he
  obtain ⟨_, stopping, late, rfl, -, hc⟩ := Course.passed (only_stopped hplain) hc he
  rw [resulted, Course.bind_assoc] at hc
  obtain ⟨result, reading, late, rfl, -, hc⟩ := Course.passed (only_heard hplain _) hc he
  rw [Course.bind_assoc] at hc
  have hlogged : ∀ r, Only (fun e => ¬e.1.appends = true) (logged (boundTo f) c r) := fun r =>
    .bind (only_downloaded hplain r) fun dir => .bind (only_file fun _ => nofun) fun _ => .pure _
  obtain ⟨⟨answer, rfl⟩, honce⟩ := append_of_entered (by rw [Course.pure_bind]; exact hlogged _) hc he
  refine ⟨⟨_, answer, rfl⟩, fun host hm => ?_, fun e' he' => by simpa using honce e' he'⟩
  obtain ⟨command, process, hstarted⟩ := started_of_launched hlaunched ((hrounds _ hplan).trans hnodes.symm) (hhosts ▸ hm)
  exact ⟨command, process, by simp [hstarted]⟩

/-- Where a loop of copies is through, every file was copied from every host. -/
theorem copied_of_each {hosts : List String} {dir : Path} {files : List String}
    (hc : Course.each (fun remote => fetched hosts remote dir) files h (some ())) {remote : String}
    (hremote : remote ∈ files) {host : String} (hm : host ∈ hosts) :
    ∃ localPath, ⟨.shell (.copyFrom host remote localPath), .ok ()⟩ ∈ h := by
  induction files generalizing h with
  | nil => cases hremote
  | cons first files ih =>
    obtain ⟨_, early, late, rfl, hfirst, hrest⟩ := Course.bind_some_iff.mp hc
    rcases List.mem_cons.mp hremote with rfl | hremote
    · obtain ⟨⟨⟩, hcopied⟩ := Session.all_ok
        (fun (host : String) (answer : Except TransportError Unit) =>
          ⟨.shell (.copyFrom host remote (Session.copyPath dir host remote)), answer⟩) (fun _ _ _ ha => ha) hfirst hm
      exact ⟨_, List.mem_append_left _ hcopied⟩
    · obtain ⟨localPath, hcopied⟩ := ih hrest hremote
      exact ⟨localPath, List.mem_append_right _ hcopied⟩

/-- Where the logs are there, every one of them was copied from every host. -/
theorem copied_of_downloaded {bound : Session} {r : RunRecord} {dir : Path} (hd : downloaded bound c r h (some dir)) :
    ∀ remote ∈ c.logFiles, ∀ host ∈ bound.hosts, ∃ localPath,
      ⟨.shell (.copyFrom host remote localPath), .ok ()⟩ ∈ h := by
  intro remote hremote host hm
  obtain ⟨_, _, _, rfl, -, hd⟩ := Course.bind_some_iff.mp hd
  obtain ⟨_, _, _, rfl, heach, -⟩ := Course.bind_some_iff.mp hd
  obtain ⟨localPath, hcopied⟩ := copied_of_each heach hremote hm
  exact ⟨localPath, by simp [hcopied]⟩

/-- Whatever is written is the list of nodes or the record of the run. -/
theorem recorded_of_write {before after : List Exchange} {e : Exchange}
    (hc : course fc c f p tracked plan (before ++ e :: after) outcome) (he : e.1.writes = true) :
    (∃ answer, e = ⟨.file (.write fc.nodeListPath (Fleet.nodeListText f.nodeAddresses fc.nodeListPort)), answer⟩)
      ∨ Recorded c f before e after outcome := by
  have hplain : Plain fun e => ¬e.1.writes = true := by
    constructor <;> intros <;> nofun
  have hlist : Only (fun e => e.1.writes = true → ∃ answer,
      e = ⟨.file (.write fc.nodeListPath (Fleet.nodeListText f.nodeAddresses fc.nodeListPort)), answer⟩)
      (approaching fc c f p tracked plan) := by
    refine only_approaching ?_ fc f p tracked plan fun answer _ => ⟨answer, rfl⟩
    constructor <;> intros <;> contradiction
  rcases Course.locate hc with ⟨x, rest, happroach⟩ | ⟨l, approach, late, rfl, hl, hc⟩
  · exact Or.inl (hlist _ _ happroach e (by simp) he)
  · have hlaunch : Only (fun e => ¬e.1.writes = true) (launched c p l) := only_started (fun _ _ _ => nofun) _
    obtain ⟨_, launching, late, rfl, -, hc⟩ := Course.passed hlaunch hc he
    obtain ⟨_, stopping, late, rfl, -, hc⟩ := Course.passed (only_stopped hplain) hc he
    obtain ⟨judged, resulting, late, rfl, -, hc⟩ := Course.passed (only_resulted hplain _ fun _ _ => nofun) hc he
    obtain ⟨dir, copying, late, rfl, hdownloaded, hc⟩ := Course.passed (only_downloaded hplain judged) hc he
    have hbefore : ∀ remote ∈ c.logFiles, ∀ host ∈ (boundTo f).hosts, ∃ localPath,
        ⟨.shell (.copyFrom host remote localPath), .ok ()⟩
          ∈ approach ++ (launching ++ (stopping ++ (resulting ++ (copying ++ late)))) := by
      intro remote hremote host hm
      obtain ⟨localPath, hm⟩ := copied_of_downloaded hdownloaded remote hremote host hm
      exact ⟨localPath, by simp [hm]⟩
    rcases call_or_later hc with ⟨x, rfl, -, rfl, rfl⟩ | ⟨reply, rfl, -, rfl, rfl⟩ | ⟨_, _, -, hlater, -⟩
    · exact Or.inr ⟨hbefore, rfl, _, _, _, rfl, rfl⟩
    · exact Or.inr ⟨hbefore, rfl, _, _, _, rfl, rfl⟩
    · exact absurd hlater (by simp)

/-- A run that returns wrote its record last. -/
theorem written_of_returned {r : RunRecord} (hc : course fc c f p tracked plan h (some r)) :
    ∃ before dir, h = before ++ [⟨.file (.write (Path.join dir recordFile) (Json.pretty r.toJson)), .ok ()⟩] := by
  obtain ⟨l, approach, _, rfl, -, hc⟩ := Course.bind_some_iff.mp hc
  obtain ⟨_, launch, _, rfl, -, hc⟩ := Course.bind_some_iff.mp hc
  obtain ⟨_, stopping, _, rfl, -, hc⟩ := Course.bind_some_iff.mp hc
  obtain ⟨judged, resulting, _, rfl, -, hc⟩ := Course.bind_some_iff.mp hc
  obtain ⟨dir, copying, _, rfl, -, hc⟩ := Course.bind_some_iff.mp hc
  rcases file_bind_iff.mp hc with ⟨_, -, hnone⟩ | ⟨⟨⟩, _, rfl, rfl, hr⟩
  · cases hnone
  · cases hr
    exact ⟨approach ++ (launch ++ (stopping ++ (resulting ++ copying))), dir, by simp⟩

end Before

/-! ## Every run -/

/-- The phases of a run follow each other, whatever hosts and files answer. What a run exchanges with them is its
course, and it returns what comes of it. The course goes on until a step fails, or there are not as many hosts as nodes,
or there is no plan, which a run makes where its payload is up to date. Then a run that is not prepared has failed for
the number of hosts, has crashed because no clock can show its schedule, which is all that it crashes for, or waits for
ever because its words ran out. Nothing is started unless every bound host answered and there are as many as
nodes; a line is added to the table of runs at most once, after every host started; whatever else is written than the
list of nodes is the record of the run, after every log was copied, and a run that returns wrote the record that it
returns. Killing, preparing, stopping the monitor and reading results are heard only: they end a run only if a host
never ends them. -/
theorem phases_are_linear (w : World σ) (fc : FleetConfig) (c : BenchConfig) (patience : Nat) (f : Fleet)
    (p : BenchParams) (s : Run Session σ) :
    ∃ new, ((runBenchmark fc c patience f p).run w s).2.history = s.history ++ new
      ∧ course fc c f p s.own.processes (planned? w patience p ((begin fc c f p).run w s).2) (effects new)
        ((runBenchmark fc c patience f p).run w s).1.value?
      ∧ (∀ t, (begin fc c f p).run w s = (.returned (), t) → Unprepared w fc c patience f p s t)
      ∧ (((runBenchmark fc c patience f p).run w s).1 = .crashed → ∃ t, (begin fc c f p).run w s = (.returned (), t)
        ∧ t.own.hosts.length = p.numNodes.toNat ∧ Schedule.new? (t.reply w .now) p = none)
      ∧ (∀ before e after, effects new = before ++ e :: after → e.1.starts = true → Verified f p before)
      ∧ (∀ before e after, effects new = before ++ e :: after → e.1.appends = true → Entered c f before e after)
      ∧ (∀ before e after, effects new = before ++ e :: after → e.1.writes = true →
          (∃ answer, e = ⟨.file (.write fc.nodeListPath (Fleet.nodeListText f.nodeAddresses fc.nodeListPort)), answer⟩)
            ∨ Recorded c f before e after ((runBenchmark fc c patience f p).run w s).1.value?)
      ∧ (∀ r, ((runBenchmark fc c patience f p).run w s).1 = .returned r → ∃ before dir, effects new
          = before ++ [⟨.file (.write (Path.join dir recordFile) (Json.pretty r.toJson)), .ok ()⟩])
      ∧ ∀ (bound : Session) (command : String) (h : List Exchange), heard bound command h none →
          ∃ host ∈ bound.hosts, ⟨.shell (.exec host command false), .never⟩ ∈ h := by
  obtain ⟨new, hh, hc, -⟩ := follows_runBenchmark (w := w) fc c patience f p s
  have hvalue : ((runBenchmark fc c patience f p).run w s).1.value?.bind some
      = ((runBenchmark fc c patience f p).run w s).1.value? := by
    cases ((runBenchmark fc c patience f p).run w s).1.value? <;> rfl
  rw [hvalue] at hc
  refine ⟨new, hh, hc, fun t => unprepared_of_begun w fc c patience f p, unscheduled_of_crashed w fc c patience f p,
    fun before e after hsplit he => ?_, fun before e after hsplit he => ?_,
    fun before e after hsplit he => ?_, fun r hr => ?_, fun _ _ _ => Session.heard_none⟩
  · exact verified_of_start (hsplit ▸ hc) he
  · exact entered_of_append (fun _ hplan => length_of_planned w hplan) (hsplit ▸ hc) he
  · exact recorded_of_write (hsplit ▸ hc) he
  · rw [hr] at hc
    exact written_of_returned hc

/-- What was asked of the shell. -/
def shellCalls (h : List Exchange) : List ShellCall := h.filterMap fun e => match e.1 with
  | .shell call => some call
  | _ => none

/-- A payload of one archive, and one log. -/
def singleArchive : BenchConfig := { packScript := none, archives := ["app.zip"], logFiles := ["app.log"] }

/-- A run of seven rounds on two nodes that brings its payload up to date. -/
def syncedRounds : BenchParams := { sevenRounds with sync := true }

/-- A session that left a process running. -/
def leaving : Run Session Unit := ⟨{ processes := [⟨"a", 1⟩] }, (), []⟩

theorem nodeAddresses_twoRunning : twoRunning.nodeAddresses = ["a", "b"] := List.mergeSort_of_pairwise (by decide)

theorem planned_syncedRounds : planned? obliging 0 syncedRounds
    ((begin {} singleArchive twoRunning syncedRounds).run obliging leaving).2
      = some (sevenLaunch.schedule, [7, 7]) := by
  unfold begin updatePayload Fleet.writeNodeList
  rw [nodeAddresses_twoRunning]
  decide +kernel

theorem rounds_syncedRounds :
    ((runBenchmark {} singleArchive 0 twoRunning syncedRounds).run obliging leaving).1.value?.map
      RunRecord.roundsPerHost = some [("a", 7), ("b", 7)] := by
  unfold runBenchmark begin updatePayload Fleet.writeNodeList
  rw [nodeAddresses_twoRunning]
  decide +kernel

/-- What that run asks of the shell, phase after phase. -/
def syncedCalls : List ShellCall :=
  [.exec "a" "date" false, .exec "b" "date" false, .close ⟨"a", 1⟩,
   .exec "a" "pkill -9 python3" false, .exec "b" "pkill -9 python3" false,
   .exec "a" (digestCommand "/home/ec2-user/app.zip") false, .exec "b" (digestCommand "/home/ec2-user/app.zip") false,
   .copyTo "a" "aws/app.zip" "/home/ec2-user/app.zip", .copyTo "b" "aws/app.zip" "/home/ec2-user/app.zip",
   .exec "a" "cd /home/ec2-user && rm -rf hydrand.py && unzip -o -q app.zip" false,
   .exec "b" "cd /home/ec2-user && rm -rf hydrand.py && unzip -o -q app.zip" false,
   .exec "a" "pkill -f dstat; rm -f ~/stats.log" false, .exec "b" "pkill -f dstat; rm -f ~/stats.log" false,
   .spawn "a" (launchLine singleArchive syncedRounds sevenLaunch.schedule "7") true,
   .spawn "b" (launchLine singleArchive syncedRounds sevenLaunch.schedule "7") true,
   .exec "a" "pkill -f dstat" false, .exec "b" "pkill -f dstat" false,
   .exec "a" "cat ~/hydrand.py/output/result" false, .exec "b" "cat ~/hydrand.py/output/result" false,
   .copyFrom "a" "app.log" "data/1970-01-01_00-01-00/a_app.log",
   .copyFrom "b" "app.log" "data/1970-01-01_00-01-00/b_app.log"]

theorem shellCalls_syncedRounds :
    shellCalls (effects ((runBenchmark {} singleArchive 0 twoRunning syncedRounds).run obliging leaving).2.history)
      = syncedCalls := by
  unfold runBenchmark begin updatePayload Fleet.writeNodeList
  rw [nodeAddresses_twoRunning]
  decide +kernel

/-- Where all are obliging that run goes through every phase on both hosts, and writes the record that it returns. -/
theorem phases_are_linear_two : ∃ r t,
    (runBenchmark {} singleArchive 0 twoRunning syncedRounds).run obliging leaving = (.returned r, t)
      ∧ course {} singleArchive twoRunning syncedRounds [⟨"a", 1⟩] (some (sevenLaunch.schedule, [7, 7]))
        (effects t.history) (some r)
      ∧ r.roundsPerHost = [("a", 7), ("b", 7)]
      ∧ shellCalls (effects t.history) = syncedCalls
      ∧ ∃ before dir, effects t.history
        = before ++ [⟨.file (.write (Path.join dir recordFile) (Json.pretty r.toJson)), .ok ()⟩] := by
  obtain ⟨new, hh, hcourse, -, -, -, -, -, hlast, -⟩ :=
    phases_are_linear obliging {} singleArchive 0 twoRunning syncedRounds leaving
  have hrounds := rounds_syncedRounds
  have hcalls := shellCalls_syncedRounds
  rw [planned_syncedRounds] at hcourse
  cases hrun : (runBenchmark {} singleArchive 0 twoRunning syncedRounds).run obliging leaving with
  | mk ending t =>
    rw [hrun] at hh hcourse hlast hrounds hcalls
    obtain ⟨r, hr, -⟩ := Option.map_eq_some_iff.mp hrounds
    obtain rfl := Ending.value?_eq_some_iff.mp hr
    have hhistory : t.history = new := hh
    rw [← hhistory] at hcourse hlast
    exact ⟨r, t, rfl, hcourse, Option.some.inj hrounds, hcalls, hlast r rfl⟩

/-- Whether a step on hosts or files succeeded. -/
def succeeded : Exchange → Bool
  | ⟨.shell (.exec ..), .after _ (.ok out)⟩ => out.exitCode == some 0
  | ⟨.shell (.spawn ..), answer⟩ => answer.isOk
  | ⟨.shell (.copyTo ..), answer⟩ => answer.isOk
  | ⟨.shell (.copyFrom ..), answer⟩ => answer.isOk
  | ⟨.shell (.close _), answer⟩ => answer.isOk
  | ⟨.file _, answer⟩ => answer.isOk
  | _ => false

/-- What a run on two hosts exchanges with them where all are obliging. -/
def exchanged (p : BenchParams) : List Exchange :=
  effects ((runBenchmark {} {} 0 twoRunning p).run obliging (fresh ())).2.history

/-- With too few hosts for its nodes, or at a time that no clock can show, a run ends before it is prepared, though no
step failed. -/
theorem a_run_may_end_where_no_step_fails :
    (¬∀ p, (exchanged p).all succeeded = true → ∀ host ∈ (boundTo twoRunning).hosts,
      .exec host (prepareCommand {}) false ∈ shellCalls (exchanged p))
    ∧ ¬∀ p : BenchParams, (boundTo twoRunning).hosts.length = p.numNodes.toNat → (exchanged p).all succeeded = true →
      ∀ host ∈ (boundTo twoRunning).hosts, .exec host (prepareCommand {}) false ∈ shellCalls (exchanged p) := by
  have hhost : "a" ∈ (boundTo twoRunning).hosts := by decide
  constructor
  · intro hall
    have hprepared := hall { sevenRounds with numNodes := 3 } (by decide +kernel) "a" hhost
    exact absurd hprepared (by decide +kernel)
  · intro hall
    have hprepared := hall { sevenRounds with startupDelay := 9223372036854775807 } (by decide) (by decide +kernel) "a"
      hhost
    exact absurd hprepared (by decide +kernel)

end Bench

end CloudFleet
