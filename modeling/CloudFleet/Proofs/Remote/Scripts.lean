import CloudFleet.Proofs.Remote.FanOut

/-!
# Scripts stop at the first command that does not succeed

A script runs its commands one after the other, each on all bound hosts. Those before the one it ends with have returned
(`Session.Passed`), and the one it ends with is the last or did not return (`Session.Reached`). The hosts are asked to
run these commands, in order, and no later one (`Session.script_stops_at_first_failure`).
-/

set_option autoImplicit false

namespace CloudFleet.Session

variable {σ : Type}

/-! ## What one command asks of the hosts -/

/-- The command of every bound host, as it is meant for that host; none if they are refused. -/
def commandsOf (hosts : List String) (options : RunOptions) (command : String) : List (String × String) :=
  (Session.commands hosts command options).toOption.getD []

/-- The calls by which a command is run on all bound hosts. -/
def callsFor (hosts : List String) (options : RunOptions) (command : String) : List Request :=
  (commandsOf hosts options command).map fun entry => .shell (.exec entry.1 entry.2 options.pty)

/-- Unless there are arguments in another number, every bound host has its command, in order. -/
theorem map_fst_commandsOf {hosts : List String} {options : RunOptions}
    (hargs : hosts ≠ [] → ∀ args ∈ options.hostArgs, args.length = hosts.length) (command : String) :
    (commandsOf hosts options command).map Prod.fst = hosts := by
  by_cases hhosts : hosts = []
  · rw [commandsOf, hhosts]
    rfl
  · obtain ⟨commands, hcommands, hfst⟩ := commands_of_bound command hhosts (hargs hhosts)
    rw [commandsOf, hcommands]
    exact hfst

/-- Hosts that all answered were called with their commands, in order. -/
theorem map_fst_effects_calls (pty : Bool) {commands : List (String × String)} {replies : List ExecReply}
    (hlength : replies.length = commands.length) :
    (effects (calls pty commands replies)).map Sigma.fst
      = commands.map fun entry => .shell (.exec entry.1 entry.2 pty) := by
  calc (effects (calls pty commands replies)).map Sigma.fst
      = ((commands.zip replies).map Prod.fst).map fun entry => .shell (.exec entry.1 entry.2 pty) := by
        rw [effects_calls, List.map_map, List.map_map]
        rfl
    _ = commands.map fun entry => .shell (.exec entry.1 entry.2 pty) := by
        rw [List.map_fst_zip (Nat.le_of_eq hlength.symm)]

/-- A program whose requests all stay here exchanges nothing with hosts or files. -/
theorem quiet_of_asks {α : Type} {p : SessionProgram α} (hp : p.Asks fun r => r.reaches = false) (w : World σ)
    (u : Run Session σ) : ∃ later, (p.run w u).2.history = u.history ++ later ∧ effects later = [] := by
  refine hp.keeps (I := fun t => ∃ later, t.history = u.history ++ later ∧ effects later = []) ?_ ?_ u
    ⟨[], by simp, rfl⟩
  · rintro r t hr ⟨later, hh, hquiet⟩
    refine ⟨later ++ [.asked r (t.reply w r)], by rw [Run.history_ask, hh, List.append_assoc], ?_⟩
    rw [effects_append, hquiet, effects_told hr]
    rfl
  · rintro c t ⟨later, hh, hquiet⟩
    refine ⟨later ++ [.changed c], by rw [Run.history_change, hh, List.append_assoc], ?_⟩
    rw [effects_append, hquiet]
    rfl

/-- A result that was judged is the result of the command that it was judged for. -/
theorem command_of_judged (w : World σ) {α : Type} (options : RunOptions) (command : String) (p : SessionProgram α)
    (outcomes : α → List Outcome) (u : Run Session σ) {result : RunResult}
    (h : ((p >>= fun answers => judge options command (outcomes answers)).run w u).1 = .returned result) :
    result.command = command := by
  rw [Program.run_andThen] at h
  cases hp : p.run w u with
  | mk ending v =>
    rw [hp] at h
    cases ending with
    | returned answers =>
      obtain ⟨ending, t, new, hjudge, -, -, -, hconcluded⟩ := run_judge w options command (outcomes answers) v
      dsimp only at h
      rw [hjudge] at h
      obtain ⟨rfl, -⟩ := (hconcluded.returned result).mp h
      rfl
    | _ => cases h

/-- However it ends, a command asks of each bound host to run it, in order, and reaches nobody else; a result is the
result of this command. -/
theorem run_contacts (w : World σ) (command : String) (options : RunOptions) (s : Run Session σ) :
    ((Session.run command options).run w s).2.own = s.own
      ∧ (∃ h, ((Session.run command options).run w s).2.history = s.history ++ h
        ∧ (effects h).map Sigma.fst = callsFor s.own.hosts options command)
      ∧ ∀ result, ((Session.run command options).run w s).1 = .returned result → result.command = command := by
  have hown : Program.Keeps w (fun t => t.own = s.own) (Session.run command options) :=
    keeps_run (fun _ _ _ ht => ht) _ _
  refine ⟨hown s rfl, ?_⟩
  rw [callsFor, commandsOf]
  cases hcommands : Session.commands s.own.hosts command options with
  | error e =>
    rw [run_refused w hcommands]
    exact ⟨⟨[], by simp, rfl⟩, nofun⟩
  | ok commands =>
    obtain ⟨ends, u, hcalls, hlength, -, hh⟩ := run_calls w options.pty commands s
    have hreturn : (Program.ofExcept (.ok commands) : SessionProgram (List (String × String))).run w s
        = (.returned commands, s) := rfl
    rw [Session.run, Program.run_andThen_of_returned (Program.run_memory w s), hcommands,
      Program.run_andThen_of_returned hreturn, Program.run_andThen_of_returned hcalls]
    refine ⟨?_, fun result hresult => ?_⟩
    · -- what follows the calls is waiting for them and judging what came of them
      obtain ⟨later, hlater, hquiet⟩ := quiet_of_asks
        ((asks_awaitAll (fun _ => rfl) options.dispatchTimeout (ends.map (limited options.timeout))).bind fun answers =>
          asks_judge (fun _ => rfl) options command
            ((commands.zip answers).map fun entry => outcomeOf s.own entry.1.1 entry.2)) w u
      refine ⟨calls options.pty commands ends ++ later, ?_, ?_⟩
      · rw [hlater, hh, List.append_assoc]
      · rw [effects_append, hquiet, List.append_nil, map_fst_effects_calls options.pty hlength]
        rfl
    · exact command_of_judged w options command _ _ u hresult

/-! ## Commands one after the other -/

/-- Commands in a row are those before, and then those behind. -/
theorem runAll_append (options : RunOptions) (last : RunResult) (first second : List String) :
    runAll options last (first ++ second)
      = runAll options last first >>= fun result => runAll options result second := by
  induction first generalizing last with
  | nil => rfl
  | cons command first ih =>
    show (Session.run command options >>= fun result => runAll options result (first ++ second)) = _
    rw [funext ih]
    exact (Program.andThen_assoc _ _ _).symm

/-- A sequence is its parts, one after the other in the same session. -/
theorem runScript_append (options : RunOptions) (first : List String) {second : List String} (h : second ≠ []) :
    runScript (.sequence (first ++ second)) options
      = runScript (.sequence first) options >>= fun _ => runScript (.sequence second) options := by
  obtain ⟨command, rest, rfl⟩ := List.exists_cons_of_ne_nil h
  exact runAll_append options _ first (command :: rest)

/-- A sequence of one command is that command. -/
theorem run_runScript_one (w : World σ) (options : RunOptions) (command : String) (s : Run Session σ) :
    (runScript (.sequence [command]) options).run w s = (Session.run command options).run w s :=
  Program.run_andThen_return w _ s

variable {w : World σ} {options : RunOptions} {commands before after : List String} {command : String}
  {s t : Run Session σ}

/-- Commands that all returned, each of them run from where the one before it ended. -/
inductive Passed (w : World σ) (options : RunOptions) : List String → Run Session σ → Run Session σ → Prop
  | nil (s : Run Session σ) : Passed w options [] s s
  | cons {command : String} {commands : List String} {s t u : Run Session σ} {result : RunResult}
    (hrun : (Session.run command options).run w s = (.returned result, t)) (rest : Passed w options commands t u) :
    Passed w options (command :: commands) s u

/-- Where a script stops: the commands before this one returned, and this one is the last or does not return. -/
structure Reached (w : World σ) (options : RunOptions) (commands : List String) (s : Run Session σ)
    (before : List String) (command : String) (after : List String) (t : Run Session σ) : Prop where
  split : commands = before ++ command :: after
  passed : Passed w options before s t
  last : after = [] ∨ ∀ result, ((Session.run command options).run w t).1 ≠ .returned result

/-- What the hosts were asked by commands that returned, and where these leave the session. -/
theorem Passed.contacts (h : Passed w options commands s t) :
    t.own = s.own ∧ ∃ new, t.history = s.history ++ new
      ∧ (effects new).map Sigma.fst = commands.flatMap (callsFor s.own.hosts options) := by
  induction h with
  | nil s => exact ⟨rfl, [], by simp, rfl⟩
  | cons hrun _ ih =>
    rename_i command commands s t u result _
    obtain ⟨hown, ⟨first, hfirst, hcalls⟩, -⟩ := run_contacts w command options s
    rw [hrun] at hown hfirst
    obtain ⟨hown', rest, hrest, hcalls'⟩ := ih
    dsimp only at hown hfirst
    refine ⟨hown'.trans hown, first ++ rest, by rw [hrest, hfirst, List.append_assoc], ?_⟩
    rw [effects_append, List.map_append, hcalls, hcalls', hown, List.flatMap_cons]

theorem Passed.runAll (h : Passed w options commands s t) (last : RunResult) :
    ∃ result, (runAll options last commands).run w s = (.returned result, t) := by
  induction h generalizing last with
  | nil s => exact ⟨last, rfl⟩
  | cons hrun _ ih =>
    obtain ⟨result, hrest⟩ := ih _
    exact ⟨result, (Program.run_andThen_of_returned hrun _).trans hrest⟩

/-- A script ends as the command ends where it stops. -/
theorem Reached.run_eq (h : Reached w options commands s before command after t) :
    (runScript (.sequence commands) options).run w s = (Session.run command options).run w t := by
  obtain ⟨result, hbefore⟩ := h.passed.runAll ⟨"", []⟩
  rw [h.split, runScript_append options before (List.cons_ne_nil _ _), runScript,
    Program.run_andThen_of_returned hbefore]
  rcases h.last with rfl | hnot
  · exact run_runScript_one w options command t
  · show (Session.run command options >>= fun result => Session.runAll options result after).run w t = _
    rw [Program.run_andThen]
    cases hrun : (Session.run command options).run w t with
    | mk ending u =>
      cases ending with
      | returned result => exact absurd (congrArg Prod.fst hrun) (hnot result)
      | failed e => rfl
      | crashed => rfl
      | stalled => rfl

/-- What the hosts were asked by a script up to where it stops. -/
theorem Reached.contacts (h : Reached w options commands s before command after t) :
    ((runScript (.sequence commands) options).run w s).2.own = s.own
      ∧ ∃ new, ((runScript (.sequence commands) options).run w s).2.history = s.history ++ new
        ∧ (effects new).map Sigma.fst = (before ++ [command]).flatMap (callsFor s.own.hosts options) := by
  obtain ⟨hown, early, hearly, hcalls⟩ := h.passed.contacts
  obtain ⟨hown', ⟨late, hlate, hcalls'⟩, -⟩ := run_contacts w command options t
  rw [h.run_eq]
  refine ⟨hown'.trans hown, early ++ late, by rw [hlate, hearly, List.append_assoc], ?_⟩
  rw [effects_append, List.map_append, hcalls, hcalls', hown, List.flatMap_append, List.flatMap_singleton]

/-- Every script stops somewhere. -/
theorem exists_reached (w : World σ) (options : RunOptions) (hne : commands ≠ []) (s : Run Session σ) :
    ∃ before command after t, Reached w options commands s before command after t := by
  induction commands generalizing s with
  | nil => exact absurd rfl hne
  | cons command commands ih =>
    by_cases hreturned : ∃ result, ((Session.run command options).run w s).1 = .returned result
    · by_cases hlast : commands = []
      · exact ⟨[], command, commands, s, rfl, .nil s, Or.inl hlast⟩
      · obtain ⟨result, hresult⟩ := hreturned
        obtain ⟨before, stop, after, t, hsplit, hpassed, hstop⟩ := ih hlast ((Session.run command options).run w s).2
        exact ⟨command :: before, stop, after, t, by rw [hsplit]; rfl, .cons (Prod.ext hresult rfl) hpassed, hstop⟩
    · exact ⟨[], command, commands, s, rfl, .nil s, Or.inr fun result hresult => hreturned ⟨result, hresult⟩⟩

/-- **Scripts stop at the first failure.** A script stops at the first command that does not return, or with the last
one, and ends as that command does, with its result if it has one; the hosts were asked to run the commands up to that
one and nothing else, each after the one before had returned. Every bound host was asked to run each of them, unless
there are arguments in another number than the hosts: then the script fails and nobody is reached. Running a sequence is
running its parts, one by one in the same session. -/
theorem script_stops_at_first_failure (w : World σ) (options : RunOptions) (commands : List String)
    (hne : commands ≠ []) (s : Run Session σ) :
    (∃ before command after t, Reached w options commands s before command after t)
      ∧ (∀ before command after t, Reached w options commands s before command after t →
        (runScript (.sequence commands) options).run w s = (Session.run command options).run w t
        ∧ (∀ result, ((runScript (.sequence commands) options).run w s).1 = .returned result →
          after = [] ∧ result.command = command)
        ∧ ((runScript (.sequence commands) options).run w s).2.own = s.own
        ∧ ∃ new, ((runScript (.sequence commands) options).run w s).2.history = s.history ++ new
          ∧ (effects new).map Sigma.fst = (before ++ [command]).flatMap (callsFor s.own.hosts options))
      ∧ ((s.own.hosts ≠ [] → ∀ args ∈ options.hostArgs, args.length = s.own.hosts.length) → ∀ command,
        (commandsOf s.own.hosts options command).map Prod.fst = s.own.hosts)
      ∧ (∀ args ∈ options.hostArgs, s.own.hosts ≠ [] → args.length ≠ s.own.hosts.length →
        (runScript (.sequence commands) options).run w s
          = (.failed (.hostArgs s.own.hosts.length args.length), s))
      ∧ (∀ first second, commands = first ++ second → second ≠ [] →
        runScript (.sequence commands) options
          = runScript (.sequence first) options >>= fun _ => runScript (.sequence second) options)
      ∧ ∀ command, (runScript (.sequence [command]) options).run w s = (Session.run command options).run w s := by
  refine ⟨exists_reached w options hne s, fun before command after t h =>
      ⟨h.run_eq, fun result hresult => ?_, h.contacts⟩,
    fun hmatched command => map_fst_commandsOf hmatched command, fun args hargs hhosts hlength => ?_,
    fun first second hsplit hsecond => hsplit ▸ runScript_append options first hsecond,
    fun command => run_runScript_one w options command s⟩
  · rw [h.run_eq] at hresult
    exact ⟨h.last.resolve_right fun hnot => hnot result hresult, (run_contacts w command options t).2.2 result hresult⟩
  · obtain ⟨command, rest, rfl⟩ := List.exists_cons_of_ne_nil hne
    have hrefused := run_refused w (commands_of_mismatch command hhosts hargs hlength)
    have hreached : Reached w options (command :: rest) s [] command rest s :=
      ⟨rfl, .nil s, Or.inr fun result hresult => by rw [hrefused] at hresult; cases hresult⟩
    rw [hreached.run_eq, hrefused]

/-- The world of two hosts where only the installation fails, and only on the second of them. -/
def failingInstallation : World Unit where
  answer r state := (match r with
    | .shell (.exec "b" "install" _) => .after .zero (.ok ⟨some 1, "", "no space left"⟩)
    | .shell (.exec _ _ _) => .after .zero (.ok ⟨some 0, "", ""⟩)
    | r => r.unanswered, state)

/-- A session that is bound to two hosts. -/
def twoBound : Run Session Unit := ⟨{ hosts := ["a", "b"] }, (), []⟩

/-- The installation is the second of three commands: the third one runs nowhere. -/
theorem script_stops_at_first_failure_installing :
    ["fetch", "install", "start"] ≠ []
      ∧ ((runScript (.sequence ["fetch", "install", "start"]) {}).run failingInstallation twoBound).1
        = .failed (.commandFailed "install"
          [⟨"a", none, some 0, "", "", none⟩, ⟨"b", none, some 1, "", "no space left", none⟩])
      ∧ (effects ((runScript (.sequence ["fetch", "install", "start"]) {}).run failingInstallation
          twoBound).2.history).map Sigma.fst
        = [.shell (.exec "a" "fetch" false), .shell (.exec "b" "fetch" false),
          .shell (.exec "a" "install" false), .shell (.exec "b" "install" false)] := by
  have hreached : Reached failingInstallation {} ["fetch", "install", "start"] twoBound ["fetch"] "install" ["start"]
      ((Session.run "fetch" {}).run failingInstallation twoBound).2 :=
    ⟨rfl, .cons (Prod.ext rfl rfl) (.nil _), Or.inr nofun⟩
  obtain ⟨-, hstops, -⟩ := script_stops_at_first_failure failingInstallation {} ["fetch", "install", "start"] (by simp)
    twoBound
  obtain ⟨hrun, -, -, new, hh, hcalls⟩ := hstops _ _ _ _ hreached
  refine ⟨by simp, congrArg Prod.fst hrun, ?_⟩
  rw [hh]
  exact hcalls

/-- Two arguments for one host. -/
def strayArgs : RunOptions := { hostArgs := some ["1", "2"] }

/-- A session that is bound to one host. -/
def oneBound : Run Session Unit := ⟨{ hosts := ["a"] }, (), []⟩

/-- The command that fails need not have reached any host: with two arguments for one host it is refused. -/
theorem refused_script_reaches_nobody :
    ¬∀ (w : World Unit) (options : RunOptions) (before : List String) (command : String) (after : List String)
      (s t u : Run Session Unit) (e : RemoteError), Passed w options before s t →
      (Session.run command options).run w t = (.failed e, u) →
      ∃ new, ((runScript (.sequence (before ++ command :: after)) options).run w s).2.history = s.history ++ new
        ∧ (execs new).map Prod.fst = (before ++ [command]).flatMap fun _ => s.own.hosts := by
  intro hall
  obtain ⟨new, hh, hcalled⟩ := hall failingInstallation strayArgs [] "x" ["y"] oneBound oneBound oneBound
    (.hostArgs 1 2) (.nil _) rfl
  have hnew : new = [] := hh.symm
  rw [hnew] at hcalled
  cases hcalled

end CloudFleet.Session
