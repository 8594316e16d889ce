import CloudFleet.Proofs.Remote.Session

/-!
# Processes of a session

What a history says of processes: what came of each attempt to start one (`Session.answers`), hence which ones started
(`started`), and which ones were hung up on (`closed`). What a session tracks is in its memory.

- `Session.run_spawn`: starting a command calls every bound host once, in order, tracks the processes that started
  behind those of before, and fails for the first host where none did.
- `Session.run_run`: a command is run on every bound host, once, and no process is started or closed.
- `Session.Stable`: a property of runs that everything on a session keeps but starting processes and closing them.
-/

set_option autoImplicit false

namespace CloudFleet

variable {σ ε : Type}

/-- Whether a request starts a process, or hangs up on one. -/
def Request.handles : Request → Bool
  | .shell (.spawn ..) => true
  | .shell (.close _) => true
  | _ => false

/-- What goes to no host has nothing to do with processes. -/
theorem Request.handles_of_local {r : Request} (h : r.remote = false) : r.handles = false := by
  cases r <;> first | rfl | cases h

namespace Session

open Program (Keeps)

/-! ## Processes in a history -/

/-- The command for a host, if one was run. -/
def exec? : Happening Session → Option (String × String)
  | .asked (.shell (.exec host command _)) _ => some (host, command)
  | _ => none

/-- The host, the command and whether there is a terminal, if a process was to be started. -/
def spawn? : Happening Session → Option (String × String × Bool)
  | .asked (.shell (.spawn host command pty)) _ => some (host, command, pty)
  | _ => none

/-- The host with its answer, if a process was to be started. -/
def answer? : Happening Session → Option (String × Except TransportError Process)
  | .asked (.shell (.spawn host ..)) answer => some (host, answer)
  | _ => none

/-- The process that was hung up on. -/
def closed? : Happening Session → Option Process
  | .asked (.shell (.close process)) _ => some process
  | _ => none

/-- Whether it has to do with processes. -/
def deals : Happening Session → Bool
  | .asked r _ => r.handles
  | .changed _ => false

variable (h k : List (Happening Session))

/-- The commands that were run, with their hosts. -/
def execs : List (String × String) := h.filterMap exec?

/-- The commands to be started, with their hosts. -/
def spawns : List (String × String × Bool) := h.filterMap spawn?

/-- What came of the commands to be started. -/
def answers : List (String × Except TransportError Process) := h.filterMap answer?

/-- The processes that started, first ones first. -/
def started : List Process := (answers h).filterMap fun x => x.2.toOption

/-- The processes that were hung up on, with whatever success. -/
def closed : List Process := h.filterMap closed?

/-- What has to do with processes. -/
def dealings : List (Happening Session) := h.filter deals

theorem execs_append : execs (h ++ k) = execs h ++ execs k := List.filterMap_append

theorem spawns_append : spawns (h ++ k) = spawns h ++ spawns k := List.filterMap_append

theorem answers_append : answers (h ++ k) = answers h ++ answers k := List.filterMap_append

theorem started_append : started (h ++ k) = started h ++ started k := by
  rw [started, answers_append, List.filterMap_append]
  rfl

theorem closed_append : closed (h ++ k) = closed h ++ closed k := List.filterMap_append

theorem dealings_append : dealings (h ++ k) = dealings h ++ dealings k := List.filter_append ..

/-- The hosts that answered are those that were called. -/
theorem answers_fst : (answers h).map Prod.fst = (spawns h).map Prod.fst := by
  have hpoint : ∀ x, (answer? x).map Prod.fst = (spawn? x).map Prod.fst := by
    intro x
    unfold answer? spawn?
    split <;> simp_all
  rw [answers, spawns, List.map_filterMap, List.map_filterMap]
  exact List.filterMap_congr fun x _ => hpoint x

section Dealings

variable {h}

theorem spawn?_of_deals {x : Happening Session} (hx : deals x = false) : spawn? x = none := by
  unfold spawn?
  split
  · cases hx
  · rfl

theorem answer?_of_deals {x : Happening Session} (hx : deals x = false) : answer? x = none := by
  unfold answer?
  split
  · cases hx
  · rfl

theorem closed?_of_deals {x : Happening Session} (hx : deals x = false) : closed? x = none := by
  unfold closed?
  split
  · cases hx
  · rfl

variable (hd : dealings h = [])
include hd

theorem deals_of_dealings {x : Happening Session} (hx : x ∈ h) : deals x = false := by
  have hnot := List.filter_eq_nil_iff.mp hd x hx
  exact Bool.not_eq_true _ ▸ hnot

theorem spawns_of_dealings : spawns h = [] :=
  List.filterMap_eq_nil_iff.mpr fun _ hx => spawn?_of_deals (deals_of_dealings hd hx)

theorem answers_of_dealings : answers h = [] :=
  List.filterMap_eq_nil_iff.mpr fun _ hx => answer?_of_deals (deals_of_dealings hd hx)

theorem started_of_dealings : started h = [] := by
  rw [started, answers_of_dealings hd]
  rfl

theorem closed_of_dealings : closed h = [] :=
  List.filterMap_eq_nil_iff.mpr fun _ hx => closed?_of_deals (deals_of_dealings hd hx)

end Dealings

/-! ## Commands for the hosts -/

section Commands

variable {hosts : List String} (command : String) {options : RunOptions}

/-- Each host's command has its argument. -/
theorem commands_of_args (hbound : hosts ≠ []) {args : List String} (hargs : options.hostArgs = some args)
    (hlength : args.length = hosts.length) :
    Session.commands hosts command options
      = .ok ((hosts.zip args).map fun entry => (entry.1, commandFor options command (some entry.2))) := by
  rw [Session.commands, if_neg (by simpa using hbound), hargs]
  exact if_pos hlength

/-- Bound hosts get a command each, in order, unless there are arguments in another number. -/
theorem commands_of_bound (hbound : hosts ≠ []) (hargs : ∀ args ∈ options.hostArgs, args.length = hosts.length) :
    ∃ commands, Session.commands hosts command options = .ok commands ∧ commands.map Prod.fst = hosts := by
  cases hoptions : options.hostArgs with
  | none =>
    rw [Session.commands, if_neg (by simpa using hbound), hoptions]
    exact ⟨_, rfl, by rw [List.map_map]; exact List.map_id _⟩
  | some args =>
    have hlength := hargs args hoptions
    refine ⟨_, commands_of_args command hbound hoptions hlength, ?_⟩
    rw [List.map_map]
    exact List.map_fst_zip (Nat.le_of_eq hlength.symm)

/-- Without arguments, users and rights the same command is meant for all hosts. -/
theorem commands_plain (hbound : hosts ≠ []) (hargs : options.hostArgs = none) (huser : options.user = none)
    (hrights : options.elevated = false) :
    Session.commands hosts command options = .ok (hosts.map fun host => (host, command)) := by
  have hcommand : commandFor options command none = command := by
    rw [commandFor, elevate, huser, hrights]
    rfl
  rw [Session.commands, if_neg (by simpa using hbound), hargs]
  simp only [hcommand]

/-- Arguments in another number than the hosts are refused. -/
theorem commands_of_mismatch (hbound : hosts ≠ []) {args : List String} (hargs : options.hostArgs = some args)
    (hlength : args.length ≠ hosts.length) :
    Session.commands hosts command options = .error (.hostArgs hosts.length args.length) := by
  rw [Session.commands, if_neg (by simpa using hbound), hargs]
  exact if_neg hlength

end Commands

/-! ## Starting a command -/

/-- The first host where no process started, as an error. -/
def firstFailure? : List (String × Except TransportError Process) → Option RemoteError
  | [] => none
  | (_, .ok _) :: rest => firstFailure? rest
  | (host, .error e) :: _ => some (.transport host e)

/-- How a start ends, by the answers of the hosts. -/
def startEnding (entries : List (String × Except TransportError Process)) : Ending RemoteError Unit :=
  match firstFailure? entries with
  | none => .returned ()
  | some e => .failed e

/-- Every host is called once, in order; nothing is tracked yet. -/
theorem run_spawns (w : World σ) (pty : Bool) (commands : List (String × String)) (s : Run Session σ) :
    ∃ replies t h, (Program.collect (fun entry => .request (.shell (.spawn entry.1 entry.2 pty))) commands :
        SessionProgram (List (Except TransportError Process))).run w s = (.returned replies, t)
      ∧ t.own = s.own ∧ t.history = s.history ++ h ∧ answers h = (commands.map Prod.fst).zip replies
      ∧ spawns h = commands.map (fun entry => (entry.1, entry.2, pty)) ∧ closed h = [] := by
  let asked (entry : String × String) (reply : Except TransportError Process) : Happening Session :=
    .asked (.shell (.spawn entry.1 entry.2 pty)) reply
  obtain ⟨replies, t, hrun, hlength, hown, hh⟩ := Program.run_collect_asking (w := w) asked
    (fun entry s => ⟨_, _, Program.run_request w (.shell (.spawn entry.1 entry.2 pty)) s, rfl, rfl⟩) commands s
  have hcommands : (commands.zip replies).map Prod.fst = commands := List.map_fst_zip (Nat.le_of_eq hlength.symm)
  refine ⟨replies, t, _, hrun, hown, hh, ?_, ?_, ?_⟩
  · rw [answers, List.filterMap_map, List.zip_map_left]
    exact List.filterMap_eq_map_iff_forall_eq_some.mpr fun _ _ => rfl
  · calc spawns ((commands.zip replies).map fun x => asked x.1 x.2)
        = (commands.zip replies).map ((fun entry => (entry.1, entry.2, pty)) ∘ Prod.fst) := by
          rw [spawns, List.filterMap_map]
          exact List.filterMap_eq_map_iff_forall_eq_some.mpr fun _ _ => rfl
      _ = commands.map fun entry => (entry.1, entry.2, pty) := by rw [← List.map_map, hcommands]
  · rw [closed, List.filterMap_map]
    exact List.filterMap_eq_nil_iff.mpr fun _ _ => rfl

/-- The processes that started are tracked behind those of before, and the first host where none did is the error. -/
theorem run_keepStarted (w : World σ) (command : String) (entries : List (String × Except TransportError Process))
    (s : Run Session σ) :
    ∃ t h, (keepStarted command entries).run w s = (.returned (firstFailure? entries), t)
      ∧ t.history = s.history ++ h ∧ dealings h = []
      ∧ t.own = { s.own with processes := s.own.processes ++ entries.filterMap fun x => x.2.toOption } := by
  induction entries generalizing s with
  | nil => exact ⟨s, [], rfl, by simp, rfl, by simp⟩
  | cons entry entries ih =>
    obtain ⟨host, answer⟩ := entry
    cases answer with
    | ok process =>
      obtain ⟨t, h, hrun, hh, hd, hown⟩ := ih (s.change (Change.started process))
      refine ⟨t, .changed (Change.started process) :: h, ?_, ?_, hd, ?_⟩
      · rw [keepStarted, note, Program.run_andThen_of_returned (Program.run_remember w _ s), hrun]
        rfl
      · rw [hh, Run.history_change, List.append_assoc]
        rfl
      · rw [hown]
        simp [Session.apply, Except.toOption]
    | error e =>
      let line : Request := .log ⟨.warn, s!"failed to start '{command}' on {host}: {e.message}"⟩
      obtain ⟨t, h, hrun, hh, hd, hown⟩ := ih (s.ask w line)
      refine ⟨t, .asked line (s.reply w line) :: h, ?_, ?_, hd, ?_⟩
      · rw [keepStarted, Program.warn, Program.log, Program.run_andThen_of_returned (Program.run_request w line s),
          Program.run_andThen_of_returned hrun]
        rfl
      · rw [hh, Run.history_ask, List.append_assoc]
        rfl
      · rw [hown]
        simp [Except.toOption]

/-- Without commands for the hosts nothing is started. -/
theorem run_spawn_refused (w : World σ) {command : String} {options : RunOptions} {s : Run Session σ} {e : RemoteError}
    (h : Session.commands s.own.hosts command options = .error e) : (spawn command options).run w s = (.failed e, s) := by
  have hraise : (Program.ofExcept (.error e) : SessionProgram (List (String × String))).run w s = (.failed e, s) := rfl
  rw [spawn, Program.run_andThen_of_returned (Program.run_memory w s), h, Program.run_andThen_of_failed hraise]

/-- Every host is called once, the processes that started are tracked behind those of before, and the first host where
none did is the error. -/
theorem run_spawn (w : World σ) {command : String} {options : RunOptions} {s : Run Session σ}
    {commands : List (String × String)} (hcommands : Session.commands s.own.hosts command options = .ok commands) :
    ∃ t h, (spawn command options).run w s = (startEnding (answers h), t) ∧ t.history = s.history ++ h
      ∧ spawns h = commands.map (fun entry => (entry.1, entry.2, options.pty)) ∧ closed h = []
      ∧ t.own = { s.own with processes := s.own.processes ++ started h } := by
  obtain ⟨replies, u, h, hcalls, hown, hh, hanswers, hspawns, hclosed⟩ := run_spawns w options.pty commands s
  obtain ⟨t, k, hkeep, hk, hd, hown'⟩ := run_keepStarted w command ((commands.map Prod.fst).zip replies) u
  have hreturn : (Program.ofExcept (.ok commands) : SessionProgram (List (String × String))).run w s
      = (.returned commands, s) := rfl
  -- what is noted of the answers has nothing more to do with processes
  have hall : answers (h ++ k) = (commands.map Prod.fst).zip replies := by
    rw [answers_append, answers_of_dealings hd, List.append_nil, hanswers]
  refine ⟨t, h ++ k, ?_, ?_, ?_, ?_, ?_⟩
  · rw [spawn, Program.run_andThen_of_returned (Program.run_memory w s), hcommands,
      Program.run_andThen_of_returned hreturn, Program.run_andThen_of_returned hcalls,
      Program.run_andThen_of_returned hkeep, hall, startEnding]
    cases firstFailure? ((commands.map Prod.fst).zip replies) <;> rfl
  · rw [hk, hh, List.append_assoc]
  · rw [spawns_append, spawns_of_dealings hd, List.append_nil, hspawns]
  · rw [closed_append, closed_of_dealings hd, List.append_nil, hclosed]
  · rw [hown', hown, started, hall]

/-! ## What everything else keeps -/

/-- A property of runs that is kept by whatever neither starts processes nor gives them up. -/
structure Stable (w : World σ) (I : Run Session σ → Prop) : Prop where
  asked : ∀ s r, r.handles = false → I s → I (s.ask w r)
  bound : ∀ s hosts, I s → I (s.change (Change.bound hosts))
  aimed : ∀ s hosts, I s → I (s.change (Change.aimed hosts))

/-- What every request keeps that has nothing to do with processes, one that goes to no host keeps. -/
theorem local_of_asked {w : World σ} {I : Run Session σ → Prop}
    (hasked : ∀ s r, r.handles = false → I s → I (s.ask w r)) (s : Run Session σ) (r : Request) (hr : r.remote = false)
    (hs : I s) : I (s.ask w r) := hasked s r (Request.handles_of_local hr) hs

theorem Stable.local {w : World σ} {I : Run Session σ → Prop} (h : Stable w I) (s : Run Session σ) (r : Request)
    (hr : r.remote = false) (hs : I s) : I (s.ask w r) := local_of_asked h.asked s r hr hs

section Keeping

variable {w : World σ} {I : Run Session σ → Prop}

theorem keeps_settleCopies (hosts : List String) (answers : List (Except TransportError Unit)) :
    Keeps w I (settleCopies hosts answers) := by
  unfold settleCopies
  split
  · exact Keeps.raise _
  · exact Keeps.pure _

section Local

variable (hlocal : ∀ s r, r.remote = false → I s → I (s.ask w r))
include hlocal

theorem keeps_local {r : Request} (hr : r.remote = false) : Keeps w I (.request r : Program Session ε r.Reply) :=
  Keeps.request fun s => hlocal s r hr

theorem keeps_log (level : Level) (text : String) : Keeps w I (.log level text : Program Session ε Unit) :=
  keeps_local hlocal rfl

theorem keeps_awaitAll {α : Type} (limit : Option Duration) (ends : List (Completion α)) :
    Keeps w I (awaitAll limit ends) := by
  unfold awaitAll
  split
  · exact (keeps_local hlocal rfl).bind fun _ => Keeps.pure _
  · split
    · exact (keeps_local hlocal rfl).bind fun _ => Keeps.pure _
    · exact (keeps_local hlocal rfl).bind fun _ => Keeps.raise _
  · exact (keeps_local hlocal rfl).bind fun _ => Keeps.raise _
  · exact Keeps.stall

theorem keeps_judge (options : RunOptions) (command : String) (outcomes : List Outcome) :
    Keeps w I (judge options command outcomes) := by
  unfold judge
  split
  · exact Keeps.raise _
  · dsimp only
    split
    · exact (Keeps.each outcomes fun _ _ => keeps_log hlocal _ _).bind fun _ => Keeps.raise _
    · exact Keeps.pure _

end Local

variable (hasked : ∀ s r, r.handles = false → I s → I (s.ask w r))
include hasked

theorem keeps_request {r : Request} (hr : r.handles = false) : Keeps w I (.request r : Program Session ε r.Reply) :=
  Keeps.request fun s => hasked s r hr

theorem keeps_run (command : String) (options : RunOptions) : Keeps w I (Session.run command options) := by
  have hlocal := local_of_asked hasked
  refine Keeps.memory.bind fun s => (Keeps.ofExcept _).bind fun commands => ?_
  refine (Keeps.collect commands fun entry _ => ?_).bind fun ends => ?_
  · exact keeps_request hasked rfl
  · exact (keeps_awaitAll hlocal _ _).bind fun answers => keeps_judge hlocal _ _ _

theorem keeps_runScript (script : Script) (options : RunOptions) : Keeps w I (runScript script options) := by
  cases script with
  | single command => exact keeps_run hasked command options
  | sequence commands =>
    have hall : ∀ last, Keeps w I (Session.runAll options last commands) := by
      induction commands with
      | nil => exact fun last => Keeps.pure last
      | cons command commands ih => exact fun last => (keeps_run hasked command options).bind fun result => ih result
    exact hall _

theorem keeps_copyTo (localPath : Path) (remotePath : String) : Keeps w I (Session.copyTo localPath remotePath) := by
  refine Keeps.memory.bind fun s => ?_
  split
  · exact Keeps.raise _
  · refine (Keeps.collect s.hosts fun host _ => ?_).bind fun answers => keeps_settleCopies _ _
    exact keeps_request hasked rfl

theorem keeps_copyFrom (remotePath : String) (dir : Path) : Keeps w I (Session.copyFrom remotePath dir) := by
  refine Keeps.memory.bind fun s => ?_
  split
  · exact Keeps.raise _
  · refine (Keeps.collect s.hosts fun host _ => ?_).bind fun answers => ?_
    · exact keeps_request hasked rfl
    · exact (keeps_settleCopies _ _).bind fun _ => Keeps.pure _

end Keeping

/-- Whatever is done on other hosts, coming back is one change more. -/
theorem Stable.narrowed {w : World σ} {I : Run Session σ → Prop} (h : Stable w I) {α : Type} (hosts : List String)
    {p : Program Session ε α} (hp : Keeps w I p) : Keeps w I (Session.narrowed hosts p) := by
  have hnarrow : Keeps w I (Session.narrow hosts : Program Session ε (List String)) :=
    Keeps.memory.bind fun s => (Keeps.remember fun t => h.aimed t hosts).bind fun _ => Keeps.pure _
  refine hnarrow.bind fun before => hp.attempt.bind fun result => ?_
  have hwiden : Keeps w I (Session.widen before : Program Session ε Unit) := Keeps.remember fun t => h.aimed t before
  exact hwiden.bind fun _ => Keeps.ofExcept result

/-! ## Running a command -/

/-- The calls of commands on their hosts, with what came of them. -/
def calls (pty : Bool) (commands : List (String × String)) (ends : List ExecReply) : List (Happening Session) :=
  (commands.zip ends).map fun x => .asked (.shell (.exec x.1.1 x.1.2 pty)) x.2

/-- Every host is called once, in order. -/
theorem run_calls (w : World σ) (pty : Bool) (commands : List (String × String)) (s : Run Session σ) :
    ∃ ends t, (Program.collect (fun entry => .request (.shell (.exec entry.1 entry.2 pty))) commands :
        SessionProgram (List ExecReply)).run w s = (.returned ends, t)
      ∧ ends.length = commands.length ∧ t.own = s.own ∧ t.history = s.history ++ calls pty commands ends := by
  let asked (entry : String × String) (reply : ExecReply) : Happening Session :=
    .asked (.shell (.exec entry.1 entry.2 pty)) reply
  exact Program.run_collect_asking (w := w) asked
    (fun entry s => ⟨_, _, Program.run_request w (.shell (.exec entry.1 entry.2 pty)) s, rfl, rfl⟩) commands s

theorem execs_calls (pty : Bool) {commands : List (String × String)} {ends : List ExecReply}
    (hlength : ends.length = commands.length) : execs (calls pty commands ends) = commands := by
  calc execs (calls pty commands ends) = (commands.zip ends).map Prod.fst := by
        rw [execs, calls, List.filterMap_map]
        exact List.filterMap_eq_map_iff_forall_eq_some.mpr fun _ _ => rfl
    _ = commands := List.map_fst_zip (Nat.le_of_eq hlength.symm)

theorem execs_ask_local {w : World σ} {listed : List (String × String)} (s : Run Session σ) (r : Request)
    (hr : r.remote = false) (hs : execs s.history = listed) : execs (s.ask w r).history = listed := by
  rw [Run.history_ask, execs_append, hs]
  cases r <;> first | exact List.append_nil _ | cases hr

/-- However it ends, a command is run on every host as it is meant for it, and nothing else is. -/
theorem run_run (w : World σ) (command : String) (options : RunOptions) (s : Run Session σ) :
    ∃ h, ((Session.run command options).run w s).2.history = s.history ++ h
      ∧ ((Session.run command options).run w s).2.own = s.own ∧ dealings h = []
      ∧ execs h = (Session.commands s.own.hosts command options).toOption.getD [] := by
  have hown : Keeps w (fun t => t.own = s.own) (Session.run command options) := keeps_run (fun t r _ ht => ht) _ _
  obtain ⟨h, hh, -, hd⟩ := Program.new_of_keeps (f := dealings) dealings_append (fun listed =>
    keeps_run (fun t r hr ht => by rw [Run.history_ask, dealings_append, ht]; simp [dealings, deals, hr]) _ _) s
  refine ⟨h, hh, hown s rfl, hd, ?_⟩
  have hexecs : execs ((Session.run command options).run w s).2.history
      = execs s.history ++ (Session.commands s.own.hosts command options).toOption.getD [] := by
    rw [Session.run, Program.run_andThen_of_returned (Program.run_memory w s)]
    cases hc : Session.commands s.own.hosts command options with
    | error e => exact (List.append_nil _).symm
    | ok commands =>
      obtain ⟨ends, t, hrun, hlength, -, hk⟩ := run_calls w options.pty commands s
      have hreturn : (Program.ofExcept (.ok commands) : SessionProgram (List (String × String))).run w s
          = (.returned commands, s) := rfl
      rw [Program.run_andThen_of_returned hreturn, Program.run_andThen_of_returned hrun]
      refine (keeps_awaitAll execs_ask_local _ _).bind (fun answers => keeps_judge execs_ask_local _ _ _) t ?_
      show execs t.history = _
      rw [hk, execs_append, execs_calls options.pty hlength]
      rfl
  rw [hh, execs_append] at hexecs
  exact List.append_cancel_left hexecs

/-! ## What a session asks -/

section Asks

variable {α : Type} {P : Request → Prop}

section Local

-- waiting and logging are among what is in question
variable (hsleep : ∀ length, P (.sleep length)) (hlog : ∀ line, P (.log line))

include hsleep in
theorem asks_awaitAll (limit : Option Duration) (ends : List (Completion α)) : (awaitAll limit ends).Asks P := by
  have hwait : ∀ time, (Program.request (.sleep time) : SessionProgram Unit).Asks P := fun time => .request (hsleep time)
  unfold awaitAll
  split
  · exact (hwait _).bind fun _ => .pure _
  · split
    · exact (hwait _).bind fun _ => .pure _
    · exact (hwait _).bind fun _ => .raise _
  · exact (hwait _).bind fun _ => .raise _
  · exact .stall

include hlog in
theorem asks_judge (options : RunOptions) (command : String) (outcomes : List Outcome) :
    (judge options command outcomes).Asks P := by
  unfold judge
  split
  · exact .raise _
  · dsimp only
    split
    · exact (Program.Asks.each outcomes fun o => .request (hlog _)).bind fun _ => .raise _
    · exact .pure _

include hsleep hlog in
/-- A command that is run as it is. -/
theorem asks_plain {command : String} {options : RunOptions} (hargs : options.hostArgs = none)
    (huser : options.user = none) (hrights : options.elevated = false)
    (hexec : ∀ host, P (.shell (.exec host command options.pty))) : (Session.run command options).Asks P := by
  refine .bind .memory fun own => ?_
  by_cases hhosts : own.hosts = []
  · rw [Session.commands, hhosts]
    exact .raise _
  · rw [commands_plain command hhosts hargs huser hrights]
    have hcalls : (Program.collect (fun entry : String × String =>
        .request (.shell (.exec entry.1 entry.2 options.pty))) (own.hosts.map fun host => (host, command)) :
        SessionProgram (List ExecReply)).Asks P := by
      refine .collect _ fun entry hentry => ?_
      obtain ⟨host, -, rfl⟩ := List.mem_map.mp hentry
      exact .request (hexec host)
    exact hcalls.bind fun ends => (asks_awaitAll hsleep _ _).bind fun answers => asks_judge hlog _ _ _

end Local

theorem asks_copyTo {localPath : Path} {remotePath : String}
    (hcopy : ∀ host, P (.shell (.copyTo host localPath remotePath))) :
    (Session.copyTo localPath remotePath).Asks P := by
  refine .bind .memory fun own => ?_
  split
  · exact .raise _
  · refine .bind (.collect own.hosts fun host _ => .request (hcopy host)) fun answers => ?_
    unfold settleCopies
    split
    · exact .raise _
    · exact .pure _

theorem asks_narrowed (hosts : List String) {p : Program Session ε α} (hp : p.Asks P) :
    (Session.narrowed hosts p).Asks P :=
  .bind (.bind .memory fun _ => .bind (.remember _) fun _ => .pure _) fun _ => hp.attempt.bind fun result =>
    .bind (.remember _) fun _ => .ofExcept result

/-- No other commands are run on hosts than these. -/
def RunsOnly (allowed : List String) : Request → Prop
  | .shell (.exec _ command _) => command ∈ allowed
  | _ => True

variable {allowed : List String}

theorem asks_log (level : Level) (text : String) :
    (Program.log level text : Program Session ε Unit).Asks (RunsOnly allowed) := .request trivial

theorem asks_run {command : String} {options : RunOptions} (hargs : options.hostArgs = none)
    (huser : options.user = none) (hrights : options.elevated = false) (hm : command ∈ allowed) :
    (Session.run command options).Asks (RunsOnly allowed) :=
  asks_plain (fun _ => trivial) (fun _ => trivial) hargs huser hrights fun _ => hm

/-- Starting a command runs none to its end. -/
theorem asks_spawn (command : String) (options : RunOptions) :
    (Session.spawn command options).Asks (RunsOnly allowed) := by
  have hkeep : ∀ entries, (keepStarted command entries).Asks (RunsOnly allowed) := by
    intro entries
    induction entries with
    | nil => exact .pure _
    | cons entry entries ih =>
      obtain ⟨host, answer⟩ := entry
      cases answer with
      | ok process => exact .bind (.remember _) fun _ => ih
      | error e => exact (asks_log _ _).bind fun _ => ih.bind fun _ => .pure _
  refine .bind .memory fun own => .bind (.ofExcept _) fun commands => ?_
  refine .bind (.collect commands fun entry _ => .request trivial) fun answers => (hkeep _).bind fun failure => ?_
  cases failure <;> trivial

end Asks

end Session

end CloudFleet
