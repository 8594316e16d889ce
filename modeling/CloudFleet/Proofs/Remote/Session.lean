import CloudFleet.Proofs.World.ProgramLogic
import CloudFleet.Remote.Session
import Mathlib.Data.List.Forall2

/-!
# What a session does on its hosts

Rules for `Session.run`, `Session.copyTo` and `Session.narrowed` in any world. A fan-out has an invariant of the hosts
called so far with their answers; if it returns, every bound host answered with success (`Session.run_ensures`,
`Session.copyTo_ensures`). Whatever is done on other hosts, the session comes back to those of before
(`Session.narrowed_ensures`).
-/

set_option autoImplicit false

namespace CloudFleet

variable {σ ε α : Type}

/-- Whether a request goes to a host. -/
def Request.remote : Request → Bool
  | .shell _ => true
  | _ => false

namespace Session

open Program (Ensures)

/-- The answer of a command on a host. -/
abbrev ExecReply := Completion (Except TransportError Output)

@[simp] theorem memory_apply (s : Session) (c : Change) : Memory.apply s c = s.apply c := rfl

/-! ## Waiting -/

/-- All calls that are gathered have ended, with what is gathered. -/
theorem gather_eq_some {ends : List (Completion α)} {time : Duration} {values : List α}
    (h : gather ends = some (time, values)) : List.Forall₂ (fun e v => ∃ delay, e = .after delay v) ends values := by
  induction ends generalizing time values with
  | nil =>
    cases h
    exact .nil
  | cons e ends ih =>
    cases e with
    | never => cases h
    | after delay value =>
      rw [gather] at h
      obtain ⟨⟨later, rest⟩, hrest, heq⟩ := Option.map_eq_some_iff.mp h
      cases heq
      exact .cons ⟨delay, rfl⟩ (ih hrest)

/-- Nothing is gathered where a call never ends. -/
theorem gather_eq_none_iff {ends : List (Completion α)} : gather ends = none ↔ .never ∈ ends := by
  induction ends with
  | nil => exact ⟨nofun, nofun⟩
  | cons e ends ih =>
    cases e with
    | never => exact ⟨fun _ => List.mem_cons_self, fun _ => rfl⟩
    | after delay value =>
      rw [gather, Option.map_eq_none_iff, ih, List.mem_cons]
      exact ⟨Or.inr, fun h => h.resolve_left nofun⟩

/-- Without a limit nothing is changed by it. -/
theorem limited_none (e : Completion (Except TransportError α)) : limited none e = e := by
  cases e <;> rfl

section Rules

variable {w : World σ} {s : Run Session σ}

/-- Without a limit, waiting is sleeping until all calls have ended. -/
theorem awaitAll_ensures {J : Run Session σ → Prop} (ends : List (Completion α))
    (hsleep : ∀ length, J (s.ask w (.sleep length))) :
    Ensures w (awaitAll none ends) s
      (fun values t => J t ∧ List.Forall₂ (fun e v => ∃ delay, e = .after delay v) ends values) fun _ => J := by
  unfold awaitAll
  cases hg : gather ends with
  | none => exact Ensures.stall
  | some gathered =>
    obtain ⟨time, values⟩ := gathered
    exact Ensures.ask (Ensures.pure ⟨hsleep time, gather_eq_some hg⟩)

/-! ## Commands -/

/-- By default, a result is returned only if the command succeeded everywhere. -/
theorem judge_ensures {J : Run Session σ → Prop} (command : String) (outcomes : List Outcome) (h : J s)
    (hlog : ∀ t line, J t → J (t.ask w (.log line))) :
    Ensures w (judge {} command outcomes) s
      (fun result t => J t ∧ result = ⟨command, outcomes⟩ ∧ ∀ o ∈ outcomes, o.isSuccess = true) fun _ => J := by
  unfold judge
  split
  · exact Ensures.raise h
  · dsimp only
    split
    · have hwarn : Ensures w (Program.each (fun o => .warn (Outcome.text o)) outcomes : SessionProgram Unit) s
          (fun _ => J) fun _ => J :=
        Ensures.of_keeps (Program.Keeps.each outcomes fun o _ => Program.Keeps.request fun t => hlog t _) h
      exact hwarn.bind fun _ t ht => Ensures.raise ht
    · rename_i hok
      refine Ensures.pure ⟨h, rfl, ?_⟩
      have hsuccess : (⟨command, outcomes⟩ : RunResult).isSuccess = true := by simpa using hok
      exact List.all_eq_true.mp hsuccess

/-- The successful outcome of a command on a host. -/
def succeeded (s : Session) (host : String) (out : Output) : Outcome :=
  ⟨host, s.id? host, some 0, out.stdout, out.stderr, none⟩

/-- An outcome that counts as success is that of a command that ended with code 0. -/
theorem outcomeOf_isSuccess {own : Session} {host : String} {answer : Except TransportError Output}
    (h : (outcomeOf own host answer).isSuccess = true) :
    ∃ out, answer = .ok out ∧ out.exitCode = some 0 ∧ outcomeOf own host answer = succeeded own host out := by
  cases answer with
  | error e => cases h
  | ok out =>
    have hcode : out.exitCode = some 0 := by simpa [outcomeOf, Outcome.isSuccess] using h
    refine ⟨out, rfl, hcode, ?_⟩
    rw [outcomeOf, succeeded, hcode]

/-- What was gathered of a host is what its call ended with. -/
theorem mem_zip_of_forall₂ {β : Type} {ends : List (Completion α)} {values : List α}
    (h : List.Forall₂ (fun e v => ∃ delay, e = .after delay v) ends values) {hosts : List β} {host : β} {v : α}
    (hm : (host, v) ∈ hosts.zip values) : ∃ delay, (host, Completion.after delay v) ∈ hosts.zip ends := by
  induction h generalizing hosts with
  | nil => simp at hm
  | cons hev _ ih =>
    obtain ⟨delay, rfl⟩ := hev
    cases hosts with
    | nil => cases hm
    | cons first hosts =>
      rcases List.mem_cons.mp hm with heq | hm
      · cases heq
        exact ⟨delay, List.mem_cons_self⟩
      · obtain ⟨later, hm⟩ := ih hm
        exact ⟨later, List.mem_cons_of_mem _ hm⟩

/-- If all outcomes are successful, the first one of a host is what its call ended with. -/
theorem outcome_of_host {own : Session} {hosts : List String} {ends : List ExecReply}
    {answers : List (Except TransportError Output)} (hlength : hosts.length ≤ answers.length)
    (hends : List.Forall₂ (fun e v => ∃ delay, e = .after delay v) ends answers)
    (hsuccess : ∀ o ∈ (hosts.zip answers).map fun answer => outcomeOf own answer.1 answer.2, o.isSuccess = true)
    {host : String} (hm : host ∈ hosts) :
    ∃ out delay, out.exitCode = some 0 ∧ (host, .after delay (.ok out)) ∈ hosts.zip ends
      ∧ ((hosts.zip answers).map fun answer => outcomeOf own answer.1 answer.2).find? (fun o => o.host == host)
        = some (succeeded own host out) := by
  have hhost : ∀ (host : String) (answer : Except TransportError Output), (outcomeOf own host answer).host = host := by
    intro host answer
    cases answer <;> rfl
  -- a host may be bound more than once; any of its outcomes will do
  have hexists : (((hosts.zip answers).map fun answer => outcomeOf own answer.1 answer.2).find?
      fun o => o.host == host).isSome = true := by
    rw [← List.map_fst_zip hlength] at hm
    obtain ⟨⟨h, v⟩, hzip, rfl⟩ := List.mem_map.mp hm
    rw [List.find?_isSome]
    exact ⟨_, List.mem_map.mpr ⟨_, hzip, rfl⟩, by simp [hhost]⟩
  obtain ⟨o, ho⟩ := Option.isSome_iff_exists.mp hexists
  have hmem := List.mem_of_find?_eq_some ho
  have hfound : o.host = host := by
    have := List.find?_some ho
    exact beq_iff_eq.mp this
  obtain ⟨⟨h, v⟩, hzip, rfl⟩ := List.mem_map.mp hmem
  rw [hhost] at hfound
  dsimp only at hfound
  subst hfound
  obtain ⟨out, rfl, hcode, heq⟩ := outcomeOf_isSuccess (hsuccess _ hmem)
  obtain ⟨delay, hdone⟩ := mem_zip_of_forall₂ hends hzip
  refine ⟨out, delay, hcode, hdone, ?_⟩
  rw [ho]
  exact congrArg some heq

/-- By default the same command is meant for all hosts, if there are any. -/
theorem commands_default (hosts : List String) (command : String) :
    Session.commands hosts command {} = .error .notConnected
      ∨ Session.commands hosts command {} = .ok (hosts.map fun host => (host, command)) := by
  unfold Session.commands
  split
  · exact Or.inl rfl
  · exact Or.inr rfl

/-- What belongs to the commands belongs to the hosts. -/
theorem zip_commands {β : Type} (hosts : List String) (command : String) (xs : List β) :
    ((hosts.map fun host => (host, command)).zip xs).map (fun x => (x.1.1, x.2)) = hosts.zip xs := by
  rw [List.zip_map_left, List.map_map]
  exact List.map_id _

/-- The calls of a command: the invariant holds of the hosts called with their answers. -/
theorem calls_ensures (hosts : List String) (command : String) {I : List (String × ExecReply) → Run Session σ → Prop}
    (h : I [] s)
    (hexec : ∀ done host t, host ∈ hosts → I done t →
      I (done ++ [(host, t.reply w (.shell (.exec host command false)))])
        (t.ask w (.shell (.exec host command false)))) :
    Ensures w (Program.collect (fun entry : String × String => .request (.shell (.exec entry.1 entry.2 false)))
        (hosts.map fun host => (host, command)) : SessionProgram (List ExecReply)) s
      (fun ends t => hosts.length = ends.length ∧ I (hosts.zip ends) t) fun _ t => ∃ done, I done t := by
  refine (Ensures.collect (I := fun done => I (done.map fun x => (x.1.1, x.2))) _ h fun done entry t hm ht => ?_).mono
    (fun ends t ⟨hlength, ht⟩ => ⟨?_, ?_⟩) fun _ _ h => h
  · obtain ⟨host, hhost, rfl⟩ := List.mem_map.mp hm
    refine Ensures.request ?_
    rw [List.map_append]
    exact hexec _ host t hhost ht
  · rw [hlength, List.length_map]
  · rw [zip_commands] at ht
    exact ht

/-- A command on all bound hosts: the invariant holds of the hosts called with their answers, and if a result is
returned, the command succeeded on every host, with the output that the result has for it. -/
theorem run_ensures (command : String) {I : List (String × ExecReply) → Run Session σ → Prop} (h : I [] s)
    (hexec : ∀ done host t, host ∈ s.own.hosts → I done t →
      I (done ++ [(host, t.reply w (.shell (.exec host command false)))])
        (t.ask w (.shell (.exec host command false))))
    (hother : ∀ done t r, r.remote = false → I done t → I done (t.ask w r)) :
    Ensures w (Session.run command {}) s
      (fun result t => ∃ done, I done t ∧ ∀ host ∈ s.own.hosts, ∃ out delay, out.exitCode = some 0
        ∧ (host, .after delay (.ok out)) ∈ done ∧ result.outcome? host = some (succeeded s.own host out))
      fun _ t => ∃ done, I done t := by
  refine Ensures.consult ?_
  rcases commands_default s.own.hosts command with hc | hc
  · rw [hc]
    exact Ensures.raise ⟨[], h⟩
  · rw [hc]
    -- the hosts are called, all calls are awaited, and the outcomes are judged
    refine (calls_ensures s.own.hosts command h hexec).bind fun ends t ⟨hlength, ht⟩ => ?_
    have hends : ends.map (limited none) = ends := by
      rw [show limited none = id from funext limited_none, List.map_id]
    show Ensures w (awaitAll none (ends.map (limited none)) >>= _) t _ _
    rw [hends]
    refine ((awaitAll_ensures (J := I (s.own.hosts.zip ends)) ends fun length => hother _ t _ rfl ht).mono
      (fun _ _ h => h) fun _ u hu => ⟨_, hu⟩).bind fun answers u ⟨hu, hall⟩ => ?_
    have houtcomes : (((s.own.hosts.map fun host => (host, command)).zip answers).map
        fun entry => outcomeOf s.own entry.1.1 entry.2)
        = (s.own.hosts.zip answers).map fun answer => outcomeOf s.own answer.1 answer.2 := by
      rw [← zip_commands s.own.hosts command, List.map_map]
      rfl
    rw [houtcomes]
    refine (judge_ensures (J := I (s.own.hosts.zip ends)) command _ hu fun v line hv => hother _ v _ rfl hv).mono
      (fun result v ⟨hv, hresult, hsuccess⟩ => ⟨_, hv, fun host hm => ?_⟩) fun _ v hv => ⟨_, hv⟩
    have hanswers : s.own.hosts.length ≤ answers.length := Nat.le_of_eq (hlength.trans hall.length_eq)
    obtain ⟨out, delay, hcode, hdone, hfind⟩ := outcome_of_host hanswers hall hsuccess hm
    refine ⟨out, delay, hcode, hdone, ?_⟩
    rw [hresult]
    exact hfind

/-! ## Copies -/

/-- Copies are settled only if all of them succeeded. -/
theorem settleCopies_ensures {J : Run Session σ → Prop} (hosts : List String)
    (answers : List (Except TransportError Unit)) (h : J s) :
    Ensures w (settleCopies hosts answers) s (fun _ t => J t ∧ ∀ x ∈ hosts.zip answers, x.2 = .ok ())
      fun _ => J := by
  unfold settleCopies
  split
  · exact Ensures.raise h
  · rename_i hnone
    refine Ensures.pure ⟨h, fun x hx => ?_⟩
    have hx := List.findSome?_eq_none_iff.mp hnone x hx
    obtain ⟨host, answer⟩ := x
    cases answer with
    | ok _ => rfl
    | error e => cases hx

/-- A copy to all bound hosts: the invariant holds of the hosts called with their answers, and if it returns, every host
got the file. -/
theorem copyTo_ensures (localPath : Path) (remotePath : String)
    {I : List (String × Except TransportError Unit) → Run Session σ → Prop} (h : I [] s)
    (hcopy : ∀ done host t, host ∈ s.own.hosts → I done t →
      I (done ++ [(host, t.reply w (.shell (.copyTo host localPath remotePath)))])
        (t.ask w (.shell (.copyTo host localPath remotePath)))) :
    Ensures w (Session.copyTo localPath remotePath) s
      (fun _ t => ∃ done, I done t ∧ ∀ host ∈ s.own.hosts, (host, .ok ()) ∈ done) fun _ t => ∃ done, I done t := by
  refine Ensures.consult ?_
  split
  · exact Ensures.raise ⟨[], h⟩
  · have hcollect := Ensures.collect (w := w) (s := s) (ε := RemoteError)
      (f := fun host : String => Program.request (.shell (.copyTo host localPath remotePath)))
      (I := I) (F := fun _ t => ∃ done, I done t) s.own.hosts h
      fun done host t hhost ht => Ensures.request (hcopy done host t hhost ht)
    refine hcollect.bind fun answers t ⟨hlength, ht⟩ => ?_
    refine (settleCopies_ensures (J := I (s.own.hosts.zip answers)) s.own.hosts answers ht).mono
      (fun _ u ⟨hu, hall⟩ => ⟨_, hu, fun host hm => ?_⟩) fun _ u hu => ⟨_, hu⟩
    rw [← List.map_fst_zip (Nat.le_of_eq hlength.symm)] at hm
    obtain ⟨⟨h, answer⟩, hzip, rfl⟩ := List.mem_map.mp hm
    have hok : answer = .ok () := hall _ hzip
    rw [hok] at hzip
    exact hzip

/-! ## Other hosts -/

/-- Whatever is done on other hosts, what it ensures holds once the session is back. -/
theorem narrowed_ensures {p : Program Session ε α} {hosts : List String} {Q : α → Run Session σ → Prop}
    {F : ε → Run Session σ → Prop}
    (h : Ensures w p (s.change (Change.aimed hosts)) (fun a t => Q a (t.change (Change.aimed s.own.hosts)))
      fun e t => F e (t.change (Change.aimed s.own.hosts))) :
    Ensures w (Session.narrowed hosts p) s Q F := by
  refine Ensures.bind (Q := fun before t => before = s.own.hosts ∧ t = s.change (Change.aimed hosts))
    (Ensures.consult (Ensures.change (Ensures.pure ⟨rfl, rfl⟩))) fun before t ⟨hbefore, ht⟩ => ?_
  subst hbefore ht
  refine h.attempt.bind fun result t hresult => Ensures.change ?_
  cases result with
  | ok a => exact Ensures.pure hresult
  | error e => exact Ensures.raise hresult

end Rules

end Session

end CloudFleet
