import CloudFleet.Proofs.Bench.Course
import CloudFleet.Proofs.Bench.Rounds
import CloudFleet.Proofs.Remote.FanOut

/-!
# How a run is judged

Collecting the results of a run reads the result of every host once. What is recorded of a host depends on what its own
read ended with and on the rounds that were assigned to it, and on nothing else (`Reported`); the run failed if one host
did (`Assessed`). However the hosts answer, those whose success does not count are no more than the nodes that were made
to stop early (`Bench.collectResults_judges`).
-/

set_option autoImplicit false

namespace CloudFleet.Bench

open Session (ExecReply)

variable {σ ε : Type}

/-! ## What a host reported -/

/-- A read that ended with success, and printed this text apart from white space at its ends. -/
def Printed (text : String) : ExecReply → Prop
  | .after _ (.ok out) => out.exitCode = some 0 ∧ Text.trim out.stdout = text
  | .after _ (.error _) | .never => False

/-- What was printed in a read, apart from white space at its ends: nothing if the host was not reached. -/
def printout : ExecReply → String
  | .after _ (.ok out) => Text.trim out.stdout
  | .after _ (.error _) | .never => ""

/-- The result of a host to which `rounds` were assigned, in a run of so many rounds, and whose result was read. -/
structure Reported (numRounds rounds : UInt64) (reply : ExecReply) (result : HostResult) : Prop where
  ok : result = .ok ↔ Printed "OK" reply ∧ rounds = numRounds
  evil : result = .evil ↔ Printed "OK" reply ∧ rounds ≠ numRounds
  failed : result = .failed ↔ Printed "FAILED" reply
  missing : ∀ text, result = .missing text
    ↔ ¬Printed "OK" reply ∧ ¬Printed "FAILED" reply ∧ text = printout reply

/-- A success counts in full if all rounds were assigned to the host. -/
theorem reported_of_printed {numRounds rounds : UInt64} {reply : ExecReply} (h : Printed "OK" reply) :
    Reported numRounds rounds reply (if rounds = numRounds then .ok else .evil) := by
  have hnot : ¬Printed "FAILED" reply := by
    intro hfailed
    cases reply with
    | never => exact h
    | after delay answer =>
      cases answer with
      | ok out => exact absurd (h.2.symm.trans hfailed.2) (by decide)
      | error e => exact h
  by_cases hrounds : rounds = numRounds
  · rw [if_pos hrounds]
    constructor <;> simp [h, hnot, hrounds]
  · rw [if_neg hrounds]
    constructor <;> simp [h, hnot, hrounds]

/-- A host that ended with success has the result that it printed, if it printed one. -/
theorem reported_hostResult {r : RunRecord} {s : Session} {host : String} {rounds : UInt64} {reply : ExecReply}
    {o : Outcome} (hrounds : r.roundsOf host = some rounds) (h : Session.Reports s none host reply o) :
    Reported r.numRounds rounds reply (hostResult r o) := by
  cases h with
  | late allowed => cases allowed
  | hung allowed => cases allowed
  | @broke delay e intime =>
    have hresult : hostResult r ⟨host, s.id? host, none, "", "", some e⟩ = .missing "" := rfl
    rw [hresult]
    constructor <;> simp [Printed, printout]
  | @ran delay out intime =>
    have hresult : hostResult r ⟨host, s.id? host, out.exitCode, out.stdout, out.stderr, none⟩
        = if out.exitCode = some 0 ∧ Text.trim out.stdout = "OK" then (if rounds = r.numRounds then .ok else .evil)
          else if out.exitCode = some 0 ∧ Text.trim out.stdout = "FAILED" then .failed
          else .missing (Text.trim out.stdout) := by
      simp [hostResult, hrounds, Outcome.isSuccess]
    rw [hresult]
    by_cases hok : out.exitCode = some 0 ∧ Text.trim out.stdout = "OK"
    · rw [if_pos hok]
      have hprinted : Printed "OK" (.after delay (.ok out)) := hok
      exact reported_of_printed hprinted
    · rw [if_neg hok]
      have hnot : ¬Printed "OK" (.after delay (.ok out)) := hok
      by_cases hfailed : out.exitCode = some 0 ∧ Text.trim out.stdout = "FAILED"
      · rw [if_pos hfailed]
        have hprinted : Printed "FAILED" (.after delay (.ok out)) := hfailed
        constructor <;> simp [hnot, hprinted]
      · rw [if_neg hfailed]
        have hnone : ¬Printed "FAILED" (.after delay (.ok out)) := hfailed
        constructor <;> simp [hnot, hnone, printout, eq_comm]

/-! ## The judgement -/

/-- What is recorded of a run when the results of its hosts have been read, in the order of the hosts. -/
structure Assessed (r : RunRecord) (hosts : List String) (rounds : List UInt64) (replies : List ExecReply) (early : Nat)
    (judged : RunRecord) : Prop where
  hosts : judged.results.map Prod.fst = hosts
  reported : List.Forall₂ (fun x entry => Reported r.numRounds x.1 x.2 entry.2) (rounds.zip replies) judged.results
  succeeded : judged.verdict = some .ok ↔ ∀ entry ∈ judged.results, entry.2 = .ok ∨ entry.2 = .evil
  failed : judged.verdict = some .failed
    ↔ ∃ entry ∈ judged.results, entry.2 = .failed ∨ ∃ text, entry.2 = .missing text
  evil : judged.results.countP (fun entry => entry.2 = .evil) ≤ early
  others : judged = { r with results := judged.results, verdict := judged.verdict }

/-- Each host has a result of its own read, for the rounds that are recorded of it. -/
theorem reported_outcomes {r : RunRecord} {s : Session} {hosts : List String} {rounds : List UInt64}
    {replies : List ExecReply} {outcomes : List Outcome} (hlength : rounds.length = hosts.length)
    (hrounds : ∀ entry ∈ hosts.zip rounds, r.roundsOf entry.1 = some entry.2)
    (h : List.Forall₂ (fun call o => Session.Reports s none call.1 call.2 o) (hosts.zip replies) outcomes) :
    List.Forall₂ (fun x entry => Reported r.numRounds x.1 x.2 entry.2) (rounds.zip replies)
      (outcomes.map fun o => (o.host, hostResult r o)) := by
  induction hosts generalizing rounds replies outcomes with
  | nil =>
    cases List.length_eq_zero_iff.mp hlength
    cases h
    exact .nil
  | cons host hosts ih =>
    obtain ⟨mine, rounds, rfl⟩ := List.exists_cons_of_length_eq_add_one hlength
    cases replies with
    | nil =>
      cases h
      exact .nil
    | cons reply replies =>
      cases h with
      | cons hreport hrest =>
        refine .cons (reported_hostResult (hrounds (host, mine) List.mem_cons_self) hreport) ?_
        exact ih (Nat.succ.inj hlength) (fun entry hm => hrounds entry (List.mem_cons_of_mem _ hm)) hrest

theorem isFailure_eq_false_iff (result : HostResult) : result.isFailure = false ↔ result = .ok ∨ result = .evil := by
  cases result <;> simp [HostResult.isFailure]

theorem isFailure_iff (result : HostResult) :
    result.isFailure = true ↔ result = .failed ∨ ∃ text, result = .missing text := by
  cases result <;> simp [HostResult.isFailure]

theorem verdict_judge_eq_ok_iff (r : RunRecord) (outcomes : List Outcome) :
    (judge r outcomes).verdict = some .ok ↔ ∀ entry ∈ (judge r outcomes).results, entry.2 = .ok ∨ entry.2 = .evil := by
  have hverdict : (judge r outcomes).verdict = some .ok
      ↔ ((judge r outcomes).results.any fun entry => entry.2.isFailure) = false := by
    unfold judge
    simp
  rw [hverdict, List.any_eq_false]
  simp only [Bool.not_eq_true, isFailure_eq_false_iff]

theorem verdict_judge_eq_failed_iff (r : RunRecord) (outcomes : List Outcome) :
    (judge r outcomes).verdict = some .failed
      ↔ ∃ entry ∈ (judge r outcomes).results, entry.2 = .failed ∨ ∃ text, entry.2 = .missing text := by
  have hverdict : (judge r outcomes).verdict = some .failed
      ↔ ((judge r outcomes).results.any fun entry => entry.2.isFailure) = true := by
    unfold judge
    simp
  rw [hverdict, List.any_eq_true]
  simp only [isFailure_iff]

/-- Where each entry of one kind stands opposite one of another kind, the latter are at least as many. -/
theorem countP_le_of_forall₂ {α β : Type} {R : α → β → Prop} {p : α → Bool} {q : β → Bool}
    (hmatch : ∀ a b, R a b → q b = true → p a = true) {as : List α} {bs : List β} (h : List.Forall₂ R as bs) :
    bs.countP q ≤ as.countP p := by
  induction h with
  | nil => exact Nat.le_refl 0
  | @cons a b as bs hab _ ih =>
    rw [List.countP_cons, List.countP_cons]
    refine Nat.add_le_add ih ?_
    by_cases hb : q b = true
    · rw [if_pos hb, if_pos (hmatch a b hab hb)]
    · rw [if_neg hb]
      exact Nat.zero_le _

/-- The judgement on what came of the reads. -/
theorem assessed_judge {r : RunRecord} {s : Session} {hosts : List String} {rounds : List UInt64}
    {replies : List ExecReply} {outcomes : List Outcome} {early : Nat} (hnodup : hosts.Nodup)
    (hrecord : r.roundsPerHost = hosts.zip rounds) (hlength : rounds.length = hosts.length)
    (hreplies : replies.length = hosts.length) (hearly : rounds.countP (· ≠ r.numRounds) ≤ early)
    (h : List.Forall₂ (fun call o => Session.Reports s none call.1 call.2 o) (hosts.zip replies) outcomes) :
    Assessed r hosts rounds replies early (judge r outcomes) := by
  have hnames : (hosts.zip rounds).map Prod.fst = hosts := List.map_fst_zip (Nat.le_of_eq hlength.symm)
  have hrounds : ∀ entry ∈ hosts.zip rounds, r.roundsOf entry.1 = some entry.2 := by
    intro entry hm
    rw [RunRecord.roundsOf, hrecord]
    exact Session.lookup_of_nodup (hnames.symm ▸ hnodup) hm
  have hreported := reported_outcomes hlength hrounds h
  refine ⟨?_, hreported, verdict_judge_eq_ok_iff r outcomes, verdict_judge_eq_failed_iff r outcomes, ?_, rfl⟩
  · calc (judge r outcomes).results.map Prod.fst = outcomes.map Outcome.host := List.map_map
      _ = (hosts.zip replies).map Prod.fst := (Session.Reports.map_eq h).1
      _ = hosts := List.map_fst_zip (Nat.le_of_eq hreplies.symm)
  · -- a success that does not count is one for other rounds than those of the run
    have hevil := countP_le_of_forall₂ (p := fun x => x.1 ≠ r.numRounds) (q := fun entry => entry.2 = .evil)
      (fun x entry hx he => decide_eq_true (hx.evil.mp (of_decide_eq_true he)).2) hreported
    have hzip : (rounds.zip replies).map Prod.fst = rounds := List.map_fst_zip (by omega)
    have hcount : (rounds.zip replies).countP (fun x => x.1 ≠ r.numRounds) = rounds.countP (· ≠ r.numRounds) := by
      conv_rhs => rw [← hzip, List.countP_map]
      rfl
    exact hevil.trans (hcount.trans_le hearly)

/-! ## Collecting the results -/

section Collecting

variable (w : World σ) (c : BenchConfig)

/-- Telling how the hosts did is only logging. -/
theorem run_tellResults (r : RunRecord) (s : Run Session σ) :
    ∃ t new, (tellResults r : Program Session ε Unit).run w s = (.returned (), t) ∧ t.own = s.own
      ∧ t.history = s.history ++ new ∧ effects new = [] := by
  obtain ⟨new, hh, ⟨heffects, hvalue⟩, hown⟩ :=
    follows_tellResults (ε := ε) (w := w) (Q := fun own => own = s.own) r rfl
  cases hr : (tellResults r : Program Session ε Unit).run w s with
  | mk ending t =>
    rw [hr] at hh hvalue hown
    cases ending with
    | returned _ => exact ⟨t, new, rfl, hown () rfl, hh, heffects⟩
    | _ => cases hvalue

/-- The file and the text, if one was appended to a file. -/
def appended? : Exchange → Option (Path × String)
  | ⟨.file (.append path text), .ok _⟩ => some (path, text)
  | _ => none

/-- The texts that were appended, with their files. -/
def appends (h : List Exchange) : List (Path × String) := h.filterMap appended?

theorem appends_append (h k : List Exchange) : appends (h ++ k) = appends h ++ appends k := List.filterMap_append

/-- What is left of an attempt to append a line. -/
def entered? (path : Path) (line : String) : Except SystemError Unit → List (Path × String)
  | .ok _ => [(path, line ++ "\n")]
  | .error _ => []

/-- However the file system answers, what comes of appending a line is told, and no host is reached. -/
theorem run_appendLine (path : Path) (line : String) (s : Run Session σ) :
    ∃ answer t new, ((appendLine path line).attempt : Program Session ε (Except SystemError Unit)).run w s
        = (.returned answer, t) ∧ t.own = s.own ∧ t.history = s.history ++ new
      ∧ (∀ x ∈ effects new, x.1.remote = false) ∧ appends (effects new) = entered? path line answer := by
  let append : Request := .file (.append path (line ++ "\n"))
  have happend : ∀ u : Run Session σ, ((Program.request append >>= Program.ofExcept :
      Program Session SystemError Unit).attempt : Program Session ε (Except SystemError Unit)).run w u
        = (.returned (u.reply w append), u.ask w append) := by
    intro u
    rw [Program.run_attempt, Program.run_andThen, Program.run_request]
    generalize u.reply w append = answer
    cases answer <;> rfl
  have hlocal : ∀ (r : Request) (reply : r.Reply), r.remote = false →
      ∀ x ∈ effects [(.asked r reply : Happening Session)], x.1.remote = false := by
    intro r reply hr x hx
    obtain rfl : x = ⟨r, reply⟩ := by simpa [effects, exchanges] using List.mem_of_mem_filter hx
    exact hr
  have hentered : ∀ reply : append.Reply,
      appends (effects [(.asked append reply : Happening Session)]) = entered? path line reply := by
    intro reply
    cases reply <;> rfl
  unfold appendLine
  cases path.parent? with
  | none => exact ⟨_, _, [.asked append (s.reply w append)], happend s, rfl, rfl, hlocal _ _ rfl, hentered _⟩
  | some dir =>
    let make : Request := .file (.createDirs dir)
    dsimp only
    rw [Program.run_attempt, Program.run_andThen, Program.run_request]
    dsimp only
    cases hmade : s.reply w (.file (.createDirs dir)) with
    | error e =>
      exact ⟨.error e, s.ask w make, [.asked make (s.reply w make)], rfl, rfl, rfl, hlocal _ _ rfl, rfl⟩
    | ok made =>
      have hrun := happend (s.ask w make)
      rw [Program.run_attempt] at hrun
      refine ⟨_, _, [.asked make (s.reply w make)] ++ [.asked append ((s.ask w make).reply w append)], hrun, rfl, ?_,
        ?_, ?_⟩
      · rw [Run.history_ask, Run.history_ask, List.append_assoc]
      · intro x hx
        rw [effects_append, List.mem_append] at hx
        exact hx.elim (hlocal _ _ rfl x) (hlocal _ _ rfl x)
      · rw [effects_append, appends_append, hentered]
        rfl

/-- The judged run is told, and added to the table of runs. -/
def entering (judged : RunRecord) : Program Session ε (Collected Verdict) := do
  tellResults judged
  match ← (appendLine c.resultsCsv judged.csvLine).attempt with
  | .error e => pure ⟨judged, .error ((Report.ofSystem e).within s!"append to {c.resultsCsv}")⟩
  | .ok () => pure ⟨judged, .ok (judged.verdict.getD .failed)⟩

theorem run_entering {judged : RunRecord} {verdict : Verdict} (hverdict : judged.verdict = some verdict)
    (s : Run Session σ) :
    ∃ answer t new, (entering c judged : Program Session ε (Collected Verdict)).run w s
        = (.returned ⟨judged, answer⟩, t) ∧ t.own = s.own ∧ t.history = s.history ++ new
      ∧ (∀ x ∈ effects new, x.1.remote = false)
      ∧ (answer = .ok verdict ∧ appends (effects new) = [(c.resultsCsv, judged.csvLine ++ "\n")]
        ∨ ∃ e, answer = .error ((Report.ofSystem e).within s!"append to {c.resultsCsv}")
          ∧ appends (effects new) = []) := by
  obtain ⟨t, told, htold, htown, hth, hnone⟩ := run_tellResults (ε := ε) w judged s
  obtain ⟨answer, u, new, happended, huown, huh, hlocal, hentered⟩ :=
    run_appendLine (ε := ε) w c.resultsCsv judged.csvLine t
  have hh : u.history = s.history ++ (told ++ new) := by rw [huh, hth, List.append_assoc]
  have heffects : effects (told ++ new) = effects new := by rw [effects_append, hnone, List.nil_append]
  unfold entering
  rw [Program.run_andThen_of_returned htold, Program.run_andThen_of_returned happended]
  cases answer with
  | ok _ =>
    exact ⟨_, u, _, rfl, huown.trans htown, hh, heffects ▸ hlocal, .inl ⟨by rw [hverdict]; rfl, heffects ▸ hentered⟩⟩
  | error e => exact ⟨_, u, _, rfl, huown.trans htown, hh, heffects ▸ hlocal, .inr ⟨e, rfl, heffects ▸ hentered⟩⟩

/-- The reads of the results of hosts, with what they ended with. -/
def reads (hosts : List String) (replies : List ExecReply) : List Exchange :=
  (hosts.zip replies).map fun x => ⟨.shell (.exec x.1 (resultCommand c) false), x.2⟩

theorem effects_reading (hosts : List String) (replies : List ExecReply) :
    effects (Session.calls false (hosts.map fun host => (host, resultCommand c)) replies)
      = reads c hosts replies := by
  rw [Session.effects_calls, List.zip_map_left, List.map_map]
  rfl

/-- The result of every host is read once. If some read never ends, nothing comes of it, and otherwise the outcomes are
those of the reads. -/
theorem run_reading (s : Run Session σ) (hhosts : s.own.hosts ≠ []) :
    ∃ replies t, replies.length = s.own.hosts.length ∧ t.own = s.own
      ∧ effects t.history = effects s.history ++ reads c s.own.hosts replies
      ∧ (.never ∈ replies → (Session.run (resultCommand c) .tolerant).run w s = (.stalled, t))
      ∧ (.never ∉ replies → ∃ outcomes,
        (Session.run (resultCommand c) .tolerant).run w s = (.returned ⟨resultCommand c, outcomes⟩, t)
        ∧ List.Forall₂ (fun call o => Session.Reports s.own none call.1 call.2 o) (s.own.hosts.zip replies)
          outcomes) := by
  have hfan : ∃ commands replies, Session.commands s.own.hosts (resultCommand c) .tolerant = .ok commands
      ∧ Session.FannedOut (resultCommand c) .tolerant commands replies s
        ((Session.run (resultCommand c) .tolerant).run w s).2 ((Session.run (resultCommand c) .tolerant).run w s).1 :=
    Session.fannedOut_run w hhosts nofun rfl
  obtain ⟨commands, replies, hcommands, hfan⟩ := hfan
  obtain rfl : s.own.hosts.map (fun host => (host, resultCommand c)) = commands :=
    Except.ok.inj ((Session.commands_plain (resultCommand c) hhosts rfl rfl rfl).symm.trans hcommands)
  obtain ⟨later, hh, hlater⟩ := hfan.contacted
  refine ⟨replies, _, hfan.answered.trans (List.length_map _), hfan.own, ?_, fun hnever => ?_, fun hnever => ?_⟩
  · rw [hh, effects_append, effects_append, hlater, List.append_nil]
    exact congrArg _ (effects_reading c s.own.hosts replies)
  · exact Prod.ext (hfan.waiting fun hended => hended ⟨rfl, hnever⟩) rfl
  · obtain ⟨outcomes, -, hreports, hconcluded⟩ := hfan.concluded fun h => hnever h.2
    exact ⟨outcomes, Prod.ext (hconcluded.tolerant rfl rfl) rfl, hreports⟩

/-- Without hosts nothing is read, and nothing is judged. -/
theorem run_collectResults_unbound (r : RunRecord) (s : Run Session σ) (hnone : s.own.hosts = []) :
    ∃ t, (collectResults c r : Program Session ε (Collected Verdict)).run w s
      = (.returned ⟨r, .error (.ofRemote .notConnected)⟩, t) ∧ effects t.history = effects s.history := by
  let line : Request := .log ⟨.info, "collecting results..."⟩
  have hinfo : (Program.info "collecting results..." : Program Session ε Unit).run w s
      = (.returned (), s.ask w line) := rfl
  have hcommands : Session.commands (s.ask w line).own.hosts (resultCommand c) .tolerant = .error .notConnected := by
    rw [Run.own_ask, hnone]
    rfl
  refine ⟨s.ask w line, ?_, by rw [Run.history_ask, effects_append, effects_told rfl, List.append_nil]⟩
  unfold collectResults
  rw [Program.run_andThen_of_returned hinfo, Program.run_andThen, Program.run_attempt,
    Session.run_refused w hcommands]
  rfl

/-- The results are read, and if all reads ended the run is judged by them, whether or not it can then be added to the
table of runs. -/
theorem run_collectResults (r : RunRecord) (s : Run Session σ) (hhosts : s.own.hosts ≠ []) :
    ∃ replies ending t later, (collectResults c r : Program Session ε (Collected Verdict)).run w s = (ending, t)
      ∧ replies.length = s.own.hosts.length ∧ t.own = s.own
      ∧ effects t.history = effects s.history ++ reads c s.own.hosts replies ++ later
      ∧ (∀ x ∈ later, x.1.remote = false)
      ∧ (.never ∈ replies → ending = .stalled)
      ∧ (.never ∉ replies → ∃ outcomes answer, ending = .returned ⟨judge r outcomes, answer⟩
        ∧ List.Forall₂ (fun call o => Session.Reports s.own none call.1 call.2 o) (s.own.hosts.zip replies) outcomes
        ∧ ∃ verdict, (judge r outcomes).verdict = some verdict
          ∧ (answer = .ok verdict ∧ appends later = [(c.resultsCsv, (judge r outcomes).csvLine ++ "\n")]
            ∨ ∃ e, answer = .error ((Report.ofSystem e).within s!"append to {c.resultsCsv}")
              ∧ appends later = [])) := by
  let line : Request := .log ⟨.info, "collecting results..."⟩
  have hinfo : (Program.info "collecting results..." : Program Session ε Unit).run w s
      = (.returned (), s.ask w line) := rfl
  have hnone : effects (s.ask w line).history = effects s.history := by
    rw [Run.history_ask, effects_append, effects_told rfl, List.append_nil]
  obtain ⟨replies, t, hlength, hown, heffects, hstalled, hended⟩ := run_reading w c (s.ask w line) hhosts
  rw [hnone] at heffects
  by_cases hnever : .never ∈ replies
  · have hrun : ((Session.run (resultCommand c) .tolerant).attempt :
        Program Session ε (Except RemoteError RunResult)).run w (s.ask w line) = (.stalled, t) := by
      rw [Program.run_attempt, hstalled hnever]
    refine ⟨replies, .stalled, t, [], ?_, hlength, hown, by rw [heffects, List.append_nil]; rfl, nofun, fun _ => rfl,
      fun h => absurd hnever h⟩
    unfold collectResults
    rw [Program.run_andThen_of_returned hinfo, Program.run_andThen, hrun]
  · obtain ⟨outcomes, hreturned, hreports⟩ := hended hnever
    have hrun : ((Session.run (resultCommand c) .tolerant).attempt :
        Program Session ε (Except RemoteError RunResult)).run w (s.ask w line)
          = (.returned (.ok ⟨resultCommand c, outcomes⟩), t) := by
      rw [Program.run_attempt, hreturned]
    have hcollect : (collectResults c r : Program Session ε (Collected Verdict)).run w s
        = (entering c (judge r outcomes)).run w t := by
      unfold collectResults
      rw [Program.run_andThen_of_returned hinfo, Program.run_andThen_of_returned hrun]
      rfl
    have hverdict : (judge r outcomes).verdict = some _ := rfl
    obtain ⟨answer, u, new, hentering, huown, huh, hlocal, hanswer⟩ := run_entering (ε := ε) w c hverdict t
    refine ⟨replies, _, u, effects new, hcollect.trans hentering, hlength, huown.trans hown, ?_, hlocal,
      fun h => absurd h hnever, fun _ => ⟨outcomes, answer, rfl, hreports, _, rfl, hanswer⟩⟩
    rw [huh, effects_append, heffects]
    rfl

end Collecting

/-- **How a run is judged.** Without hosts collecting the results fails, and the record stays as it is. Otherwise the
result of every host is read once, and nothing else is asked of the hosts. If all reads end, the record has one result
for each host, in order, by what its own read ended with and the rounds that were assigned to it, and the verdict that
no host failed or that one did; this is the answer too if the line can be added to the table of runs. Whatever the hosts
print, no more of them were successful without its counting than nodes were made to stop early. -/
theorem collectResults_judges (w : World σ) (c : BenchConfig) {r : RunRecord} {s : Run Session σ}
    {adversary : Option RoundBound} {words rest rounds : List UInt64} (hnodup : s.own.hosts.Nodup)
    (hassign : Rounds.assign s.own.hosts.length r.numRounds adversary words = some (rounds, rest))
    (hrecord : r.roundsPerHost = s.own.hosts.zip rounds) :
    (s.own.hosts = [] → ∃ t, (collectResults c r : Program Session ε (Collected Verdict)).run w s
        = (.returned ⟨r, .error (.ofRemote .notConnected)⟩, t) ∧ effects t.history = effects s.history)
      ∧ (s.own.hosts ≠ [] → ∃ replies ending t later,
        (collectResults c r : Program Session ε (Collected Verdict)).run w s = (ending, t)
        ∧ replies.length = s.own.hosts.length ∧ t.own = s.own
        ∧ effects t.history = effects s.history ++ reads c s.own.hosts replies ++ later
        ∧ (∀ x ∈ later, x.1.remote = false)
        ∧ (.never ∈ replies → ending = .stalled)
        ∧ (.never ∉ replies → ∃ judged answer, ending = .returned ⟨judged, answer⟩
          ∧ Assessed r s.own.hosts rounds replies (Rounds.stopping s.own.hosts.length adversary) judged
          ∧ ∃ verdict, judged.verdict = some verdict
            ∧ (answer = .ok verdict ∧ appends later = [(c.resultsCsv, judged.csvLine ++ "\n")]
              ∨ ∃ e, answer = .error ((Report.ofSystem e).within s!"append to {c.resultsCsv}")
                ∧ appends later = []))) := by
  refine ⟨fun hnone => ?_, fun hhosts => ?_⟩
  · exact run_collectResults_unbound w c r s hnone
  · obtain ⟨replies, ending, t, later, hrun, hlength, hown, heffects, hlocal, hstalled, hended⟩ :=
      run_collectResults (ε := ε) w c r s hhosts
    refine ⟨replies, ending, t, later, hrun, hlength, hown, heffects, hlocal, hstalled, fun hnever => ?_⟩
    obtain ⟨outcomes, answer, hreturned, hreports, hanswer⟩ := hended hnever
    exact ⟨_, answer, hreturned, assessed_judge hnodup hrecord (Rounds.length_assign hassign) hlength
      (Rounds.countP_ne_le hassign) hreports, hanswer⟩

/-- The world of four hosts: the first and the last one print success, the second one prints failure, and the third one
cannot be reached. Files can be written. -/
def fourHosts : World Unit where
  answer r state := (match r with
    | .shell (.exec "a" _ _) => .after .zero (.ok ⟨some 0, " OK\n", ""⟩)
    | .shell (.exec "b" _ _) => .after .zero (.ok ⟨some 0, "FAILED", ""⟩)
    | .shell (.exec "c" _ _) => .after .zero (.error (.timeout .zero))
    | .shell (.exec "d" _ _) => .after .zero (.ok ⟨some 0, "OK", ""⟩)
    | .file (.createDirs _) => .ok ()
    | .file (.append ..) => .ok ()
    | r => r.unanswered, state)

/-- A session that is bound to the four hosts. -/
def fourBound : Run Session Unit := ⟨{ hosts := ["a", "b", "c", "d"] }, (), []⟩

/-- The record of a run of nine rounds, with four rounds for the last host. -/
def fourRecord : RunRecord where
  numNodes := 4
  numRounds := 9
  proposeDuration := 2
  acknowledgeDuration := 2
  voteDuration := 2
  start := default
  finish := default
  roundsPerHost := [("a", 9), ("b", 9), ("c", 9), ("d", 4)]
  results := []
  verdict := none
  dataDir := none

/-- Each of the four results occurs, and the success that does not count is that of the one node that stops early. -/
theorem collectResults_judges_four :
    let judged := { fourRecord with
      results := [("a", .ok), ("b", .failed), ("c", .missing ""), ("d", .evil)], verdict := some .failed }
    ((collectResults {} fourRecord : BenchProgram (Collected Verdict)).run fourHosts fourBound).1
        = .returned ⟨judged, .ok .failed⟩
      ∧ ∃ replies, replies.length = 4 ∧ Assessed fourRecord ["a", "b", "c", "d"] [9, 9, 9, 4] replies 1 judged := by
  have hassign : Rounds.assign 4 9 (some .exclusive) [9000000000000000000, 0, 0, 0]
      = some ([9, 9, 9, 4], []) := by decide +kernel
  have hrun : ((collectResults {} fourRecord : BenchProgram (Collected Verdict)).run fourHosts fourBound).1
      = .returned ⟨{ fourRecord with
        results := [("a", .ok), ("b", .failed), ("c", .missing ""), ("d", .evil)], verdict := some .failed },
        .ok .failed⟩ := rfl
  refine ⟨hrun, ?_⟩
  obtain ⟨replies, ending, t, later, h, hlength, -, -, -, hstalled, hended⟩ :=
    (collectResults_judges (r := fourRecord) (s := fourBound) (ε := Report) fourHosts {} (by decide) hassign rfl).2
      (by decide)
  rw [h] at hrun
  have hnever : .never ∉ replies := fun hm => by cases (hstalled hm).symm.trans hrun
  obtain ⟨judged, answer, hreturned, hjudged, -⟩ := hended hnever
  cases hreturned.symm.trans hrun
  rw [← Rounds.minority_eq] at hjudged
  exact ⟨replies, hlength, hjudged⟩

end CloudFleet.Bench
