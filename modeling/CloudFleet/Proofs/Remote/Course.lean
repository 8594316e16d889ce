import CloudFleet.Proofs.Remote.Processes
import CloudFleet.Proofs.World.Course

/-!
# The courses of what a session does

What is exchanged with the bound hosts when a command is run on them, started on them, or a file is copied, and where
it is through: a command that may fail as soon as it has ended on every host (`heard`), any other one if it succeeded on
all of them (`insisted`), a start or a copy if it succeeded for each host (`started`, `sent`, `fetched`).
-/

set_option autoImplicit false

namespace CloudFleet.Session

open Program (Keeps)

variable {σ ε α : Type}

/-! ## Courses on hosts -/

/-- A command on every host. It is through when it has ended on all of them, in whatever way. -/
def heard (bound : Session) (command : String) : Course RunResult := do
  let ends ← Course.collect (fun host => Course.ask (.shell (.exec host command false))) bound.hosts
  match gather ends with
  | some (_, answers) => pure ⟨command, (bound.hosts.zip answers).map fun x => outcomeOf bound x.1 x.2⟩
  | none => Course.stop

/-- A command on every host. It is through if it succeeded on all of them. -/
def insisted (bound : Session) (command : String) : Course RunResult := do
  let result ← heard bound command
  Course.demand result.isSuccess
  pure result

/-- A command to be started on every host. It is through if a process started on each of them. -/
def started? (commands : List (String × String)) : Course Unit := do
  let answers ← Course.collect (fun entry => Course.ask (.shell (.spawn entry.1 entry.2 true))) commands
  Course.demand ((commands.zip answers).all fun x => x.2.isOk)

/-- A local file to be copied to every host. -/
def sent (hosts : List String) (localPath : Path) (remotePath : String) : Course Unit := do
  let answers ← Course.collect (fun host => Course.ask (.shell (.copyTo host localPath remotePath))) hosts
  Course.demand ((hosts.zip answers).all fun x => x.2.isOk)

/-- A file to be copied from every host into a local directory. -/
def fetched (hosts : List String) (remotePath : String) (dir : Path) : Course Unit := do
  let answers ← Course.collect
    (fun host => Course.ask (.shell (.copyFrom host remotePath (copyPath dir host remotePath)))) hosts
  Course.demand ((hosts.zip answers).all fun x => x.2.isOk)

/-- Processes that are hung up on, with whatever success. -/
def hungUp (processes : List Process) : Course Unit :=
  Course.each (fun process => do let _ ← Course.ask (.shell (.close process))) processes

/-! ## What a session does follows them -/

/-- A memory with the hosts and instances of a session. -/
def At (bound own : Session) : Prop := own.hosts = bound.hosts ∧ own.ids = bound.ids

theorem At.outcomeOf_eq {bound own : Session} (h : At bound own) (host : String)
    (answer : Except TransportError Output) : outcomeOf own host answer = outcomeOf bound host answer := by
  have hid : own.id? host = bound.id? host := congrArg (List.lookup host) h.2
  cases answer <;> simp only [outcomeOf, hid]

section Follows

variable {w : World σ} {s : Run Session σ} {bound : Session} {Q : Session → Prop}

theorem follows_log (level : Level) (text : String) (hs : Q s.own) :
    Follows w (Program.log level text : Program Session ε Unit) s (pure ()) (fun _ => some ()) Q := .tell rfl hs

/-- The commands are run and awaited; then their outcomes are judged. -/
theorem follows_calls {options : RunOptions} {command : String} {C : RunResult → Course α}
    {value : RunResult → Option α}
    (hplain : Session.commands s.own.hosts command options = .ok (s.own.hosts.map fun host => (host, command)))
    (hoptions : options.pty = false ∧ options.timeout = none ∧ options.dispatchTimeout = none) (hbound : At bound s.own)
    (hs : Q s.own)
    (hjudge : ∀ outcomes t, Q t.own →
      Follows w (judge options command outcomes) t (C ⟨command, outcomes⟩) value Q) :
    Follows w (Session.run command options) s (heard bound command >>= C) value Q := by
  obtain ⟨hpty, htimeout, hdispatch⟩ := hoptions
  refine .consult ?_
  rw [hplain, hpty, htimeout, hdispatch, hbound.1, heard, Course.bind_assoc]
  have hcalls : Follows w (Program.collect (fun entry : String × String =>
        .request (.shell (.exec entry.1 entry.2 false))) (bound.hosts.map fun host => (host, command)) :
        SessionProgram (List ExecReply)) s
      (Course.collect (fun host => Course.ask (.shell (.exec host command false))) bound.hosts) some Q :=
    .collect (fun host => (host, command)) bound.hosts hs fun _ _ ht => .ask rfl ht
  refine hcalls.andThen fun ends t _ _ ht => ?_
  have hends : ends.map (limited none) = ends := by
    rw [show limited none = id from funext limited_none, List.map_id]
  rw [hends]
  unfold awaitAll
  cases gather ends with
  | none => exact .finish rfl (Or.inl ⟨⟨rfl, rfl⟩, rfl⟩)
  | some gathered =>
    obtain ⟨time, answers⟩ := gathered
    have hsleep : Follows w (Program.request (.sleep time) : SessionProgram Unit) t (pure ()) (fun _ => some ()) Q :=
      .tell rfl ht
    have houtcomes : ((bound.hosts.map fun host => (host, command)).zip answers).map
        (fun entry => outcomeOf s.own entry.1.1 entry.2) = (bound.hosts.zip answers).map
          fun x => outcomeOf bound x.1 x.2 := by
      rw [← zip_commands bound.hosts command, List.map_map]
      exact List.map_congr_left fun x _ => hbound.outcomeOf_eq _ _
    refine hsleep.skip fun _ u hu => ?_
    show Follows w (judge options command _) u (pure _ >>= C) value Q
    rw [houtcomes, Course.pure_bind]
    exact hjudge _ u hu

/-- A command that may fail goes on when it has ended everywhere. -/
theorem follows_heard (command : String) (hhosts : bound.hosts ≠ []) (hbound : At bound s.own) (hs : Q s.own) :
    Follows w (Session.run command .tolerant) s (heard bound command) some Q := by
  have hplain : Session.commands s.own.hosts command .tolerant = .ok (s.own.hosts.map fun host => (host, command)) :=
    commands_plain command (hbound.1 ▸ hhosts) rfl rfl rfl
  rw [← Course.bind_pure (heard bound command)]
  exact follows_calls hplain ⟨rfl, rfl, rfl⟩ hbound hs fun outcomes t ht => .pure ⟨rfl, rfl⟩ ht

/-- A command that may fail does not fail itself. -/
theorem heard_ensures (command : String) (hhosts : s.own.hosts ≠ []) :
    Program.Ensures w (Session.run command .tolerant) s (fun _ _ => True) fun _ _ => False := by
  refine .consult ?_
  rw [commands_plain command hhosts rfl rfl rfl]
  have hcalls := Program.Ensures.collect (w := w) (s := s) (ε := RemoteError) (I := fun _ _ => True)
    (F := fun _ _ => False) (f := fun entry : String × String =>
      Program.request (.shell (.exec entry.1 entry.2 false))) (s.own.hosts.map fun host => (host, command)) trivial
    fun _ _ _ _ _ => .request trivial
  refine hcalls.bind fun ends t _ => ?_
  refine .bind (Q := fun _ _ => True) ?_ fun answers u _ => .pure trivial
  unfold awaitAll
  cases gather (ends.map (limited RunOptions.tolerant.timeout)) with
  | none => exact .stall
  | some gathered => exact .ask (.pure trivial)

/-- By default outcomes are judged by their success. -/
theorem follows_judge (command : String) (outcomes : List Outcome) (hs : Q s.own) :
    Follows w (judge {} command outcomes) s (do
      Course.demand (RunResult.isSuccess ⟨command, outcomes⟩)
      pure ⟨command, outcomes⟩) some Q := by
  have hrefused (hfailed : RunResult.isSuccess ⟨command, outcomes⟩ = false) : (do
      Course.demand (RunResult.isSuccess ⟨command, outcomes⟩)
      pure ⟨command, outcomes⟩ : Course RunResult) [] none := by
    rw [hfailed]
    exact Or.inl ⟨⟨rfl, rfl⟩, rfl⟩
  unfold judge
  split
  · rename_i host error herror
    refine .finish rfl (hrefused ?_)
    obtain ⟨o, ho, hfound⟩ := List.exists_of_findSome?_eq_some herror
    refine List.all_eq_false.mpr ⟨o, ho, ?_⟩
    cases he : o.error with
    | none =>
      rw [he] at hfound
      cases hfound
    | some e => simp [Outcome.isSuccess, he]
  · dsimp only
    split
    · rename_i hfailed
      have hwarn : Follows w (Program.each (fun o => .warn (Outcome.text o)) outcomes : SessionProgram Unit) s (pure ())
          (fun _ => some ()) Q := .tellEach outcomes hs fun o t ht => follows_log _ _ ht
      refine hwarn.skip fun _ t ht => .finish rfl (hrefused ?_)
      simpa using hfailed
    · rename_i hok
      have hsuccess : RunResult.isSuccess ⟨command, outcomes⟩ = true := by simpa using hok
      exact .demanded hsuccess (.pure ⟨rfl, rfl⟩ hs)

/-- A command goes on if it succeeded everywhere. -/
theorem follows_insisted (command : String) (hhosts : bound.hosts ≠ []) (hbound : At bound s.own) (hs : Q s.own) :
    Follows w (Session.run command {}) s (insisted bound command) some Q :=
  follows_calls (commands_plain command (hbound.1 ▸ hhosts) rfl rfl rfl) ⟨rfl, rfl, rfl⟩ hbound hs
    fun outcomes _ ht => follows_judge command outcomes ht

/-- Copies are settled if all of them succeeded. -/
theorem follows_settleCopies (hosts : List String) (answers : List (Except TransportError Unit)) (hs : Q s.own) :
    Follows w (settleCopies hosts answers) s (Course.demand ((hosts.zip answers).all fun x => x.2.isOk)) some Q := by
  unfold settleCopies
  split
  · rename_i host error herror
    obtain ⟨x, hx, hfound⟩ := List.exists_of_findSome?_eq_some herror
    have hrefused : ((hosts.zip answers).all fun x => x.2.isOk) = false := by
      refine List.all_eq_false.mpr ⟨x, hx, ?_⟩
      cases he : x.2 with
      | ok _ =>
        rw [he] at hfound
        cases hfound
      | error e => simp [Except.isOk, Except.toBool]
    rw [hrefused]
    exact .raise _
  · rename_i hnone
    have hall : ((hosts.zip answers).all fun x => x.2.isOk) = true := by
      refine List.all_eq_true.mpr fun x hx => ?_
      have hx := List.findSome?_eq_none_iff.mp hnone x hx
      cases he : x.2 with
      | ok _ => rfl
      | error e =>
        rw [he] at hx
        cases hx
    rw [hall]
    exact .pure ⟨rfl, rfl⟩ hs

theorem follows_sent (localPath : Path) (remotePath : String) (hhosts : s.own.hosts ≠ []) (hs : Q s.own) :
    Follows w (Session.copyTo localPath remotePath) s (sent s.own.hosts localPath remotePath) some Q := by
  refine .consult ?_
  rw [if_neg (by simpa using hhosts)]
  have hcopies : Follows w (Program.collect (fun host : String =>
        .request (.shell (.copyTo host localPath remotePath))) (s.own.hosts.map id) :
        SessionProgram (List (Except TransportError Unit))) s
      (Course.collect (fun host => Course.ask (.shell (.copyTo host localPath remotePath))) s.own.hosts) some Q :=
    .collect id s.own.hosts hs fun _ _ ht => .ask rfl ht
  rw [List.map_id] at hcopies
  exact hcopies.andThen fun answers t _ _ ht => follows_settleCopies _ answers ht

theorem follows_fetched (remotePath : String) (dir : Path) (hhosts : s.own.hosts ≠ []) (hs : Q s.own) :
    Follows w (Session.copyFrom remotePath dir) s (fetched s.own.hosts remotePath dir) (fun _ => some ()) Q := by
  refine .consult ?_
  rw [if_neg (by simpa using hhosts)]
  have hcopies : Follows w (Program.collect (fun host : String =>
        .request (.shell (.copyFrom host remotePath (copyPath dir host remotePath)))) (s.own.hosts.map id) :
        SessionProgram (List (Except TransportError Unit))) s
      (Course.collect (fun host => Course.ask (.shell (.copyFrom host remotePath (copyPath dir host remotePath))))
        s.own.hosts) some Q := .collect id s.own.hosts hs fun _ _ ht => .ask rfl ht
  rw [List.map_id] at hcopies
  refine hcopies.andThen fun answers t _ _ ht => ?_
  rw [← Course.bind_pure (Course.demand _)]
  exact (follows_settleCopies _ answers ht).andThen fun _ u _ _ hu => .pure ⟨rfl, rfl⟩ hu

/-- No start failed if all of them succeeded. -/
theorem firstFailure?_eq_none_iff (entries : List (String × Except TransportError Process)) :
    firstFailure? entries = none ↔ (entries.all fun x => x.2.isOk) = true := by
  induction entries with
  | nil => simp [firstFailure?]
  | cons entry entries ih =>
    obtain ⟨host, answer⟩ := entry
    cases answer with
    | ok process => simp [firstFailure?, ih, Except.isOk, Except.toBool]
    | error e => simp [firstFailure?, Except.isOk, Except.toBool]

/-- Processes are kept without anything being exchanged. -/
theorem follows_keepStarted (command : String) (entries : List (String × Except TransportError Process))
    (hQ : ∀ own processes, Q own → Q { own with processes }) (hs : Q s.own) :
    Follows w (keepStarted command entries) s (pure (firstFailure? entries)) some Q := by
  induction entries generalizing s with
  | nil => exact .pure ⟨rfl, rfl⟩ hs
  | cons entry entries ih =>
    obtain ⟨host, answer⟩ := entry
    cases answer with
    | ok process => exact .change (ih (hQ s.own _ hs))
    | error e =>
      refine (follows_log _ _ hs).skip fun _ t ht => ?_
      rw [← Course.pure_bind (firstFailure? entries) fun _ => pure (firstFailure? ((host, .error e) :: entries))]
      exact (ih ht).andThen fun _ u _ _ hu => .pure ⟨rfl, rfl⟩ hu

/-- A start goes on if a process started everywhere. -/
theorem follows_started {command : String} {options : RunOptions} {commands : List (String × String)}
    (hcommands : Session.commands s.own.hosts command options = .ok commands) (hpty : options.pty = true)
    (hQ : ∀ own processes, Q own → Q { own with processes }) (hs : Q s.own) :
    Follows w (Session.spawn command options) s (started? commands) some Q := by
  refine .consult ?_
  rw [hcommands, hpty]
  have hcalls : Follows w (Program.collect (fun entry : String × String =>
        .request (.shell (.spawn entry.1 entry.2 true))) (commands.map id) :
        SessionProgram (List (Except TransportError Process))) s
      (Course.collect (fun entry => Course.ask (.shell (.spawn entry.1 entry.2 true))) commands) some Q :=
    .collect id commands hs fun _ _ ht => .ask rfl ht
  rw [List.map_id] at hcalls
  refine hcalls.andThen fun answers t _ _ ht => ?_
  have hnames : ((commands.map Prod.fst).zip answers).all (fun x => x.2.isOk)
      = (commands.zip answers).all fun x => x.2.isOk := by
    rw [List.zip_map_left, List.all_map]
    rfl
  rw [← hnames, ← Course.pure_bind (firstFailure? ((commands.map Prod.fst).zip answers)) fun _ => Course.demand _]
  refine (follows_keepStarted command _ hQ ht).andThen fun failure u h hfailure hu => ?_
  obtain ⟨-, hfailure⟩ := hfailure
  cases Option.some.inj hfailure
  cases hf : firstFailure? ((commands.map Prod.fst).zip answers) with
  | none =>
    rw [(firstFailure?_eq_none_iff _).mp hf]
    exact .pure ⟨rfl, rfl⟩ hu
  | some e =>
    have hrefused : ((commands.map Prod.fst).zip answers).all (fun x => x.2.isOk) = false := by
      by_contra hall
      rw [(firstFailure?_eq_none_iff _).mpr (by simpa using hall)] at hf
      cases hf
    rw [hrefused]
    exact .raise e

/-- What is done on other hosts, with the hosts of before afterwards. -/
theorem follows_narrowed {β : Type} {hosts : List String} {p : Program Session ε α} {C : Course β}
    {value : α → Option β}
    (h : Follows w p (s.change (Change.aimed hosts)) C value fun own => Q { own with hosts := s.own.hosts }) :
    Follows w (Session.narrowed hosts p) s C value Q := by
  have hrun : (Session.narrowed hosts p).run w s = (Program.remember (Change.aimed hosts) >>= fun _ =>
      p.attempt >>= fun result => Program.remember (Change.aimed s.own.hosts) >>= fun _ =>
        Program.ofExcept result).run w s := rfl
  refine .of_run_eq hrun (.change ?_)
  rw [← Course.bind_pure C]
  refine h.attempt.bind (fun result b t _ hvalue _ ht => .change ?_) fun result t hnone => .change ?_
  · cases result with
    | ok a => exact .pure ⟨rfl, hvalue⟩ ht
    | error e => cases hvalue
  · cases result with
    | ok a => exact .nothing hnone ⟨rfl, rfl⟩
    | error e => exact .raise e

end Follows

/-! ## What comes of the courses -/

section Outcomes

/-- What belongs to an item of two lists of one length. -/
theorem exists_mem_zip {α β : Type} {as : List α} {bs : List β} (hlength : bs.length = as.length) {a : α}
    (ha : a ∈ as) : ∃ b, (a, b) ∈ as.zip bs := by
  rw [← List.map_fst_zip (Nat.le_of_eq hlength.symm)] at ha
  obtain ⟨⟨a', b⟩, hm, rfl⟩ := List.mem_map.mp ha
  exact ⟨b, hm⟩

/-- What is exchanged with hosts that are called one after the other. -/
theorem effects_calls (pty : Bool) (commands : List (String × String)) (ends : List ExecReply) :
    effects (calls pty commands ends)
      = (commands.zip ends).map fun x => ⟨.shell (.exec x.1.1 x.1.2 pty), x.2⟩ := by
  have hexchanges : exchanges (calls pty commands ends)
      = (commands.zip ends).map fun x => ⟨.shell (.exec x.1.1 x.1.2 pty), x.2⟩ := by
    rw [exchanges, calls, List.filterMap_map]
    exact List.filterMap_eq_map_iff_forall_eq_some.mpr fun _ _ => rfl
  rw [effects, hexchanges, List.filter_eq_self]
  intro x hx
  obtain ⟨call, -, rfl⟩ := List.mem_map.mp hx
  rfl

variable {bound : Session} {command : String} {h : List Exchange}

/-- The answers of the hosts to a command. -/
theorem heard_calls {ends : List ExecReply} {h : List Exchange}
    (hc : Course.collect (fun host => Course.ask (.shell (.exec host command false))) bound.hosts h (some ends)) :
    ends.length = bound.hosts.length
      ∧ h = (bound.hosts.zip ends).map fun x => ⟨.shell (.exec x.1 command false), x.2⟩ :=
  Course.collect_some (fun host (e : ExecReply) => ⟨.shell (.exec host command false), e⟩)
    (fun _ _ _ ha => ha) h hc

/-- What comes of a command that may fail: every host answered, and if all calls ended there is a result. -/
theorem heard_ends {x : Option RunResult} (hh : heard bound command h x) :
    ∃ ends : List ExecReply, ends.length = bound.hosts.length
      ∧ h = (bound.hosts.zip ends).map (fun y => ⟨.shell (.exec y.1 command false), y.2⟩)
      ∧ x = (gather ends).map fun gathered =>
        ⟨command, (bound.hosts.zip gathered.2).map fun y => outcomeOf bound y.1 y.2⟩ := by
  rcases Course.bind_iff.mp hh with ⟨hcalls, -⟩ | ⟨ends, before, after, rfl, hcalls, hends⟩
  · exact absurd hcalls (Course.not_collect_none (fun host h ⟨_, _, hnone⟩ => nomatch hnone) _ _)
  · obtain ⟨hlength, rfl⟩ := heard_calls hcalls
    refine ⟨ends, hlength, ?_⟩
    cases hg : gather ends with
    | none =>
      rw [hg] at hends
      exact ⟨hends.1 ▸ List.append_nil _, hends.2⟩
    | some gathered =>
      rw [hg] at hends
      exact ⟨hends.1 ▸ List.append_nil _, hends.2⟩

/-- A command that may fail is the last step only where it does not end on some host. -/
theorem heard_none (hh : heard bound command h none) :
    ∃ host ∈ bound.hosts, ⟨.shell (.exec host command false), .never⟩ ∈ h := by
  obtain ⟨ends, hlength, rfl, hends⟩ := heard_ends hh
  have hnever := gather_eq_none_iff.mp (Option.map_eq_none_iff.mp hends.symm)
  rw [← List.map_snd_zip (Nat.le_of_eq hlength)] at hnever
  obtain ⟨⟨host, e⟩, hm, rfl⟩ := List.mem_map.mp hnever
  exact ⟨host, (List.of_mem_zip hm).1, List.mem_map.mpr ⟨_, hm, rfl⟩⟩

/-- The call of a command ended with code 0. -/
def EndedWell (e : ExecReply) : Prop := ∃ delay out, e = .after delay (.ok out) ∧ out.exitCode = some 0

/-- All outcomes are successful where all calls ended well. -/
theorem all_isSuccess_iff (bound : Session) (command : String) {hosts : List String} {ends : List ExecReply}
    {answers : List (Except TransportError Output)} (hlength : ends.length = hosts.length)
    (hends : List.Forall₂ (fun e v => ∃ delay, e = .after delay v) ends answers) :
    RunResult.isSuccess ⟨command, (hosts.zip answers).map fun y => outcomeOf bound y.1 y.2⟩ = true
      ↔ ∀ e ∈ ends, EndedWell e := by
  induction hends generalizing hosts with
  | nil => simp [RunResult.isSuccess]
  | @cons e v ends answers he _ ih =>
    obtain ⟨delay, rfl⟩ := he
    cases hosts with
    | nil => cases hlength
    | cons host hosts =>
      have hhead : (outcomeOf bound host v).isSuccess = true ↔ EndedWell (.after delay v) := by
        refine ⟨fun hsuccess => ?_, fun ⟨_, out, heq, hcode⟩ => ?_⟩
        · obtain ⟨out, rfl, hcode, -⟩ := outcomeOf_isSuccess hsuccess
          exact ⟨delay, out, rfl, hcode⟩
        · cases heq
          simp [outcomeOf, Outcome.isSuccess, hcode]
      rw [List.forall_mem_cons, ← ih (Nat.succ.inj hlength), ← hhead]
      simp [RunResult.isSuccess]

/-- What comes of a command that must not fail: there is a result if the call of every host ended well. -/
theorem insisted_ends {x : Option RunResult} (hi : insisted bound command h x) :
    ∃ ends : List ExecReply, ends.length = bound.hosts.length
      ∧ h = (bound.hosts.zip ends).map (fun y => ⟨.shell (.exec y.1 command false), y.2⟩)
      ∧ (x = none ↔ ¬∀ e ∈ ends, EndedWell e)
      ∧ ∀ result ∈ x, ∀ host ∈ bound.hosts, ∃ out delay, out.exitCode = some 0
        ∧ (host, .after delay (.ok out)) ∈ bound.hosts.zip ends
        ∧ result.outcome? host = some (succeeded bound host out) := by
  rcases Course.bind_iff.mp hi with ⟨hheard, rfl⟩ | ⟨result, before, after, rfl, hheard, hdemand⟩
  · obtain ⟨ends, hlength, rfl, hends⟩ := heard_ends hheard
    have hnever := gather_eq_none_iff.mp (Option.map_eq_none_iff.mp hends.symm)
    refine ⟨ends, hlength, rfl, ⟨fun _ hall => ?_, fun _ => rfl⟩, nofun⟩
    obtain ⟨delay, out, hended, -⟩ := hall _ hnever
    cases hended
  · obtain ⟨ends, hlength, rfl, hends⟩ := heard_ends hheard
    obtain ⟨⟨time, answers⟩, hg, rfl⟩ := Option.map_eq_some_iff.mp hends.symm
    have hall := gather_eq_some hg
    have hsuccess := all_isSuccess_iff bound command hlength hall
    rw [Course.demand_bind] at hdemand
    split at hdemand
    · rename_i hyes
      obtain ⟨rfl, rfl⟩ := hdemand
      refine ⟨ends, hlength, List.append_nil _, ⟨nofun, fun hnot => absurd (hsuccess.mp hyes) hnot⟩, ?_⟩
      rintro _ ⟨⟩ host hm
      exact outcome_of_host (Nat.le_of_eq (hlength.symm.trans hall.length_eq)) hall (List.all_eq_true.mp hyes) hm
    · rename_i hno
      obtain ⟨rfl, rfl⟩ := hdemand
      exact ⟨ends, hlength, List.append_nil _, ⟨fun _ h => hno (hsuccess.mpr h), fun _ => rfl⟩, nofun⟩

/-- Where a command that must not fail is through, it succeeded on every host. -/
theorem insisted_some {result : RunResult} (hi : insisted bound command h (some result)) {host : String}
    (hm : host ∈ bound.hosts) : ∃ delay out, out.exitCode = some 0
      ∧ ⟨.shell (.exec host command false), .after delay (.ok out)⟩ ∈ h := by
  obtain ⟨ends, -, rfl, -, hresult⟩ := insisted_ends hi
  obtain ⟨out, delay, hcode, hended, -⟩ := hresult result rfl host hm
  exact ⟨delay, out, hcode, List.mem_map.mpr ⟨_, hended, rfl⟩⟩

/-- What comes of copies to hosts: they are settled if every host got its copy. -/
theorem sent_answers {hosts : List String} {localPath : Path} {remotePath : String} {x : Option Unit}
    (hs : sent hosts localPath remotePath h x) :
    ∃ answers : List (Except TransportError Unit), answers.length = hosts.length
      ∧ h = (hosts.zip answers).map (fun y => ⟨.shell (.copyTo y.1 localPath remotePath), y.2⟩)
      ∧ (x = some () ↔ ∀ answer ∈ answers, answer = .ok ()) := by
  rcases Course.bind_iff.mp hs with ⟨hcopies, -⟩ | ⟨answers, before, after, rfl, hcopies, hdemand⟩
  · exact absurd hcopies (Course.not_collect_none (fun host h ⟨_, _, hnone⟩ => nomatch hnone) _ _)
  · obtain ⟨hlength, rfl⟩ := Course.collect_some (fun host (answer : Except TransportError Unit) =>
      ⟨.shell (.copyTo host localPath remotePath), answer⟩) (fun _ _ _ ha => ha) _ hcopies
    have hok : ((hosts.zip answers).all fun y => y.2.isOk) = true ↔ ∀ answer ∈ answers, answer = .ok () := by
      have hanswers : answers = (hosts.zip answers).map Prod.snd := (List.map_snd_zip (Nat.le_of_eq hlength)).symm
      rw [List.all_eq_true]
      conv_rhs => rw [hanswers, List.forall_mem_map]
      refine forall₂_congr fun y _ => ?_
      cases y.2 <;> simp [Except.isOk, Except.toBool]
    unfold Course.demand at hdemand
    split at hdemand
    · rename_i hyes
      obtain ⟨rfl, rfl⟩ := hdemand
      exact ⟨answers, hlength, List.append_nil _, fun _ => hok.mp hyes, fun _ => rfl⟩
    · rename_i hno
      obtain ⟨rfl, rfl⟩ := hdemand
      exact ⟨answers, hlength, List.append_nil _, nofun, fun h => absurd (hok.mpr h) hno⟩

/-- Where a call was demanded to succeed for each item, it did. -/
theorem all_ok {α β : Type} {f : α → Course (Except TransportError β)}
    (exchange : α → Except TransportError β → Exchange)
    (hf : ∀ a h (x : Option (Except TransportError β)), f a h x → ∃ b, h = [exchange a b] ∧ x = some b) {as : List α}
    (hc : (do
      let answers ← Course.collect f as
      Course.demand ((as.zip answers).all fun x => x.2.isOk)) h (some ())) {a : α} (ha : a ∈ as) :
    ∃ b, exchange a (.ok b) ∈ h := by
  obtain ⟨answers, _, _, rfl, hcalls, hdemand⟩ := Course.bind_some_iff.mp hc
  obtain ⟨rfl, hall⟩ := Course.demand_some_iff.mp hdemand
  obtain ⟨hlength, rfl⟩ := Course.collect_some exchange hf _ hcalls
  obtain ⟨answer, hzip⟩ := exists_mem_zip hlength ha
  cases hanswer : answer with
  | ok b =>
    subst hanswer
    exact ⟨b, List.mem_append_left _ (List.mem_map.mpr ⟨_, hzip, rfl⟩)⟩
  | error e =>
    have hok := List.all_eq_true.mp hall _ hzip
    rw [hanswer] at hok
    cases hok

end Outcomes

end CloudFleet.Session
