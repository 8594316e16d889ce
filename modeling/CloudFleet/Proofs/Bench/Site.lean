import CloudFleet.Bench.Collect
import CloudFleet.Proofs.Remote.Processes

/-!
# Hosts that hold results

`site c touch w` is a world like `w` in which every host has a result file, or none: `touch` says which requests write
or remove it, whatever these are, and the command that prints results prints what is there, or fails. A site knows which
files were touched since it began. A program that asks for no result cannot tell one site from another
(`Blind.of_asks`), and the answers to the command that prints results depend on the files alone (`run_results`).
-/

set_option autoImplicit false

namespace CloudFleet

variable {σ : Type}

/-- The result files of hosts, in the surroundings of a world. -/
structure Site (σ : Type) where
  /-- The content of the file of a host, if there is one. -/
  results : String → Option String
  /-- Whether the file was written or removed since the site began. -/
  touched : String → Bool
  rest : σ

/-- What an answered request does to the result file of each host: nothing, or it has another content or none now. -/
abbrev Touch (σ : Type) := (r : Request) → r.Reply → σ → String → Option (Option String)

open Session (ExecReply)

/-- Whether a request prints a result. -/
def Request.reads (c : BenchConfig) : Request → Bool
  | .shell (.exec _ command _) => command == Bench.resultCommand c
  | _ => false

/-- What comes of printing a file on a host that can be reached. -/
def printed (file : Option String) : Except TransportError Output → Except TransportError Output
  | .ok out => .ok (match file with
    | some text => { out with exitCode := some 0, stdout := text }
    | none => { out with exitCode := some 1, stdout := "" })
  | .error e => .error e

/-- What is seen of a host where a file is printed. -/
def shown (file : Option String) : ExecReply → ExecReply
  | .after delay answer => .after delay (printed file answer)
  | .never => .never

namespace Site

/-- What is seen of an answer. -/
def seen (c : BenchConfig) (d : Site σ) : (r : Request) → r.Reply → r.Reply
  | .shell (.exec host command _), reply =>
    if command == Bench.resultCommand c then shown (d.results host) reply else reply
  | _, reply => reply

/-- What becomes of a site when a request has been answered. -/
def after (c : BenchConfig) (touch : Touch σ) (d : Site σ) (r : Request) (reply : r.Reply) (rest : σ) : Site σ :=
  if r.reads c then { d with rest }
  else
    { results := fun host => (touch r reply rest host).getD (d.results host)
      touched := fun host => d.touched host || (touch r reply rest host).isSome
      rest }

end Site

/-- A world like another one, in which the hosts have result files. -/
def site (c : BenchConfig) (touch : Touch σ) (w : World σ) : World (Site σ) where
  answer r d :=
    let (reply, rest) := w.answer r d.rest
    (d.seen c r reply, d.after c touch r reply rest)

/-- A run at a site that begins, with the result files that are left over. -/
def Site.begin (own : Session) (rest : σ) (left : String → Option String) : Run Session (Site σ) :=
  ⟨own, ⟨left, fun _ => false, rest⟩, []⟩

/-! ## Two sites -/

/-- Runs at two sites that were begun with other files: they remember the same, and the files differ at most where they
are left over. -/
structure Alike (left₁ left₂ : String → Option String) (s t : Run Session (Site σ)) : Prop where
  own : s.own = t.own
  rest : s.world.rest = t.world.rest
  touched : s.world.touched = t.world.touched
  results : ∀ host, s.world.touched host = true → s.world.results host = t.world.results host
  left : ∀ host, s.world.touched host = false →
    s.world.results host = left₁ host ∧ t.world.results host = left₂ host

section Alike

variable {c : BenchConfig} {left₁ left₂ : String → Option String} {s t : Run Session (Site σ)}

theorem alike_begin (own : Session) (rest : σ) :
    Alike left₁ left₂ (Site.begin own rest left₁) (Site.begin own rest left₂) :=
  ⟨rfl, rfl, rfl, nofun, fun _ _ => ⟨rfl, rfl⟩⟩

/-- Two answers to what asks for no result are the same, and nothing but the files can differ afterwards. -/
theorem Alike.ask (touch : Touch σ) (w : World σ) (h : Alike left₁ left₂ s t) {r : Request} (hr : r.reads c = false) :
    s.reply (site c touch w) r = t.reply (site c touch w) r
      ∧ Alike left₁ left₂ (s.ask (site c touch w) r) (t.ask (site c touch w) r) := by
  have hseen : ∀ (d : Site σ) (reply : r.Reply), d.seen c r reply = reply := by
    intro d reply
    unfold Site.seen
    split
    · rename_i host command pty reply
      have hcommand : (command == Bench.resultCommand c) = false := hr
      rw [hcommand]
      rfl
    · rfl
  have hafter : ∀ (d : Site σ) (reply : r.Reply) (rest : σ), d.after c touch r reply rest
      = ⟨fun host => (touch r reply rest host).getD (d.results host),
        fun host => d.touched host || (touch r reply rest host).isSome, rest⟩ := by
    intro d reply rest
    rw [Site.after, hr]
    rfl
  have hreply : ∀ u : Run Session (Site σ), u.reply (site c touch w) r = (w.answer r u.world.rest).1 :=
    fun u => hseen u.world _
  refine ⟨by rw [hreply, hreply, h.rest], ?_⟩
  -- what the request does to the files is the same at both sites
  have hworld : ∀ u : Run Session (Site σ), (u.ask (site c touch w) r).world
      = ⟨fun host => (touch r (w.answer r u.world.rest).1 (w.answer r u.world.rest).2 host).getD (u.world.results host),
        fun host => u.world.touched host
          || (touch r (w.answer r u.world.rest).1 (w.answer r u.world.rest).2 host).isSome,
        (w.answer r u.world.rest).2⟩ := fun u => hafter u.world _ _
  constructor
  · exact h.own
  · rw [hworld, hworld, h.rest]
  · rw [hworld, hworld, h.rest, h.touched]
  · intro host htouched
    rw [hworld] at htouched ⊢
    rw [hworld]
    dsimp only at htouched ⊢
    rw [h.rest] at htouched ⊢
    cases hw : touch r (w.answer r t.world.rest).1 (w.answer r t.world.rest).2 host with
    | some content => rfl
    | none =>
      rw [hw, Option.isSome_none, Bool.or_false] at htouched
      exact h.results host htouched
  · intro host huntouched
    rw [hworld] at huntouched ⊢
    rw [hworld]
    dsimp only at huntouched ⊢
    rw [h.rest] at huntouched ⊢
    obtain ⟨hbefore, hnone⟩ := Bool.or_eq_false_iff.mp huntouched
    rw [Option.isSome_eq_false_iff, Option.isNone_iff_eq_none] at hnone
    rw [hnone]
    exact h.left host hbefore

end Alike

/-! ## Printing the results -/

/-- What hosts answer to a command in a world where nothing is known of files, and what becomes of that world. -/
def calls (w : World σ) (command : String) : List String → σ → List ExecReply × σ
  | [], rest => ([], rest)
  | host :: hosts, rest =>
    let (reply, rest) := w.answer (.shell (.exec host command false)) rest
    let (replies, rest) := calls w command hosts rest
    (reply :: replies, rest)

theorem length_calls (w : World σ) (command : String) (hosts : List String) (rest : σ) :
    (calls w command hosts rest).1.length = hosts.length := by
  induction hosts generalizing rest with
  | nil => rfl
  | cons host hosts ih => exact congrArg Nat.succ (ih _)

/-- The calls are gathered whatever the files are, and each answer is what is printed of the file of its host. -/
theorem gather_shown (results : String → Option String) (hosts : List String) (ends : List ExecReply)
    (hlength : ends.length = hosts.length) :
    Session.gather ((hosts.zip ends).map fun x => shown (results x.1) x.2)
      = (Session.gather ends).map fun g => (g.1, (hosts.zip g.2).map fun x => printed (results x.1) x.2) := by
  induction hosts generalizing ends with
  | nil =>
    cases List.length_eq_zero_iff.mp hlength
    rfl
  | cons host hosts ih =>
    cases ends with
    | nil => cases hlength
    | cons e ends =>
      have hrest := ih ends (Nat.succ.inj hlength)
      cases e with
      | never => rfl
      | after delay answer =>
        rw [List.zip_cons_cons, List.map_cons, shown, Session.gather, hrest, Session.gather, Option.map_map,
          Option.map_map]
        rfl

/-- What is made of the pairs of two lists belongs to the first one. -/
theorem zip_map_zip {α β γ : Type} (as : List α) (bs : List β) (g : α × β → γ) :
    as.zip ((as.zip bs).map g) = (as.zip bs).map fun x => (x.1, g x) := by
  induction as generalizing bs with
  | nil => rfl
  | cons a as ih =>
    cases bs with
    | nil => rfl
    | cons b bs => exact congrArg ((a, g (a, b)) :: ·) (ih bs)

section Printing

variable (c : BenchConfig) (touch : Touch σ) (w : World σ)

/-- Printing the result of a host changes no file. -/
theorem ask_printing (host : String) (t : Run Session (Site σ)) :
    t.reply (site c touch w) (.shell (.exec host (Bench.resultCommand c) false))
        = shown (t.world.results host) (w.answer (.shell (.exec host (Bench.resultCommand c) false)) t.world.rest).1
      ∧ (t.ask (site c touch w) (.shell (.exec host (Bench.resultCommand c) false))).world
        = { t.world with rest := (w.answer (.shell (.exec host (Bench.resultCommand c) false)) t.world.rest).2 } := by
  have hreads : Request.reads c (.shell (.exec host (Bench.resultCommand c) false)) = true := beq_self_eq_true _
  constructor
  · show (if Bench.resultCommand c == Bench.resultCommand c then _ else _) = _
    rw [beq_self_eq_true, if_pos rfl]
  · show t.world.after c touch _ _ _ = _
    rw [Site.after, hreads, if_pos rfl]

/-- What is printed of the results of hosts, one after the other. -/
theorem run_printing (hosts : List String) (t : Run Session (Site σ)) :
    ∃ h, (Program.collect (fun entry : String × String => .request (.shell (.exec entry.1 entry.2 false)))
        (hosts.map fun host => (host, Bench.resultCommand c)) : SessionProgram (List ExecReply)).run (site c touch w) t
      = (.returned ((hosts.zip (calls w (Bench.resultCommand c) hosts t.world.rest).1).map fun x =>
            shown (t.world.results x.1) x.2),
          ⟨t.own, { t.world with rest := (calls w (Bench.resultCommand c) hosts t.world.rest).2 }, h⟩) := by
  induction hosts generalizing t with
  | nil => exact ⟨t.history, rfl⟩
  | cons host hosts ih =>
    let call : Request := .shell (.exec host (Bench.resultCommand c) false)
    obtain ⟨hreply, hworld⟩ := ask_printing c touch w host t
    obtain ⟨h, hrest⟩ := ih (t.ask (site c touch w) call)
    rw [hworld] at hrest
    refine ⟨h, ?_⟩
    rw [List.map_cons, Program.collect, Program.run_andThen_of_returned (Program.run_request _ call t),
      Program.run_andThen_of_returned hrest, hreply]
    rfl

/-- Without hosts nothing is run. -/
theorem run_unbound (command : String) (options : RunOptions) {t : Run Session σ} (hnone : t.own.hosts = []) :
    (Session.run command options).run w t = (.failed .notConnected, t) := by
  rw [Session.run, Program.run_andThen_of_returned (Program.run_memory w t), hnone]
  rfl

/-- What comes of printing the results depends on the files, and on nothing else that differs between sites. -/
theorem run_results (t : Run Session (Site σ)) (hhosts : t.own.hosts ≠ []) :
    ∃ u, u.own = t.own
      ∧ u.world = { t.world with rest := (calls w (Bench.resultCommand c) t.own.hosts t.world.rest).2 }
      ∧ (Session.run (Bench.resultCommand c) .tolerant).run (site c touch w) t
        = match Session.gather (calls w (Bench.resultCommand c) t.own.hosts t.world.rest).1 with
          | some (time, answers) => (.returned ⟨Bench.resultCommand c, (t.own.hosts.zip answers).map fun x =>
              Session.outcomeOf t.own x.1 (printed (t.world.results x.1) x.2)⟩, u.ask (site c touch w) (.sleep time))
          | none => (.stalled, u) := by
  obtain ⟨h, hprinting⟩ := run_printing c touch w t.own.hosts t
  refine ⟨⟨t.own, { t.world with rest := (calls w (Bench.resultCommand c) t.own.hosts t.world.rest).2 }, h⟩, rfl, rfl,
    ?_⟩
  have hreturn : (Program.ofExcept (.ok (t.own.hosts.map fun host => (host, Bench.resultCommand c))) :
      SessionProgram (List (String × String))).run (site c touch w) t
    = (.returned (t.own.hosts.map fun host => (host, Bench.resultCommand c)), t) := rfl
  have hgather := gather_shown t.world.results t.own.hosts
    (calls w (Bench.resultCommand c) t.own.hosts t.world.rest).1 (length_calls ..)
  rw [Session.run, Program.run_andThen_of_returned (Program.run_memory _ t),
    Session.commands_plain _ hhosts rfl rfl rfl, Program.run_andThen_of_returned hreturn,
    show RunOptions.tolerant.pty = false from rfl, Program.run_andThen_of_returned hprinting,
    show RunOptions.tolerant.timeout = none from rfl, show Session.limited none = id from funext Session.limited_none,
    List.map_id, show RunOptions.tolerant.dispatchTimeout = none from rfl]
  unfold Session.awaitAll
  rw [hgather]
  cases Session.gather (calls w (Bench.resultCommand c) t.own.hosts t.world.rest).1 with
  | none => rfl
  | some gathered =>
    obtain ⟨time, answers⟩ := gathered
    have houtcomes : ((t.own.hosts.map fun host => (host, Bench.resultCommand c)).zip
        ((t.own.hosts.zip answers).map fun x => printed (t.world.results x.1) x.2)).map
          (fun entry => Session.outcomeOf t.own entry.1.1 entry.2)
        = (t.own.hosts.zip answers).map fun x => Session.outcomeOf t.own x.1 (printed (t.world.results x.1) x.2) := by
      have hzip := Session.zip_commands t.own.hosts (Bench.resultCommand c)
        ((t.own.hosts.zip answers).map fun x => printed (t.world.results x.1) x.2)
      rw [zip_map_zip] at hzip
      calc _ = ((t.own.hosts.zip answers).map fun x => (x.1, printed (t.world.results x.1) x.2)).map
            fun x => Session.outcomeOf t.own x.1 x.2 := by
              rw [← hzip, List.map_map]
              rfl
        _ = _ := List.map_map
    dsimp only
    rw [← houtcomes]
    rfl

end Printing

/-! ## What cannot tell two sites from each other -/

/-- A program that ends the same way at two sites, and leaves them alike. -/
def Blind (c : BenchConfig) (touch : Touch σ) (w : World σ) (left₁ left₂ : String → Option String) {ε α : Type}
    (p : Program Session ε α) : Prop :=
  ∀ s t, Alike left₁ left₂ s t → (p.run (site c touch w) s).1 = (p.run (site c touch w) t).1
    ∧ Alike left₁ left₂ (p.run (site c touch w) s).2 (p.run (site c touch w) t).2

namespace Blind

variable {ε ε' α β : Type} {c : BenchConfig} {touch : Touch σ} {w : World σ} {left₁ left₂ : String → Option String}

/-- What asks for no result. -/
theorem of_asks {p : Program Session ε α} (hp : p.Asks fun r => r.reads c = false) :
    Blind c touch w left₁ left₂ p := by
  intro s t h
  induction p generalizing s t with
  | finish ending => exact ⟨rfl, h⟩
  | ask r next ih =>
    obtain ⟨hreply, hask⟩ := h.ask touch w hp.1
    have hrest := ih (s.reply (site c touch w) r) (hp.2 _) _ _ hask
    show _ = ((next (t.reply (site c touch w) r)).run (site c touch w) (t.ask (site c touch w) r)).1
      ∧ Alike left₁ left₂ _ ((next (t.reply (site c touch w) r)).run (site c touch w) (t.ask (site c touch w) r)).2
    rw [← hreply]
    exact hrest
  | consult next ih =>
    show _ = ((next t.own).run (site c touch w) t).1
      ∧ Alike left₁ left₂ _ ((next t.own).run (site c touch w) t).2
    rw [← h.own]
    exact ih s.own (hp s.own) s t h
  | change ch next ih =>
    exact ih hp _ _ ⟨congrArg (Memory.apply · ch) h.own, h.rest, h.touched, h.results, h.left⟩

theorem bind {p : Program Session ε α} {f : α → Program Session ε β} (hp : Blind c touch w left₁ left₂ p)
    (hf : ∀ a, Blind c touch w left₁ left₂ (f a)) : Blind c touch w left₁ left₂ (p >>= f) := by
  intro s t h
  obtain ⟨hsame, halike⟩ := hp s t h
  rw [Program.run_andThen, Program.run_andThen]
  cases hs : p.run (site c touch w) s with
  | mk ending u =>
    cases ht : p.run (site c touch w) t with
    | mk ending' v =>
      rw [hs, ht] at hsame halike
      cases hsame
      cases ending with
      | returned a => exact hf a u v halike
      | failed e => exact ⟨rfl, halike⟩
      | crashed => exact ⟨rfl, halike⟩
      | stalled => exact ⟨rfl, halike⟩

theorem attempt {p : Program Session ε α} (hp : Blind c touch w left₁ left₂ p) :
    Blind c touch w left₁ left₂ (p.attempt : Program Session ε' (Except ε α)) := by
  intro s t h
  obtain ⟨hsame, halike⟩ := hp s t h
  rw [Program.run_attempt, Program.run_attempt]
  cases hs : p.run (site c touch w) s with
  | mk ending u =>
    cases ht : p.run (site c touch w) t with
    | mk ending' v =>
      rw [hs, ht] at hsame halike
      cases hsame
      cases ending <;> exact ⟨rfl, halike⟩

theorem mapError {p : Program Session ε α} (hp : Blind c touch w left₁ left₂ p) (g : ε → ε') :
    Blind c touch w left₁ left₂ (p.mapError g) := by
  refine hp.attempt.bind fun result => of_asks ?_
  cases result <;> trivial

end Blind

end CloudFleet
