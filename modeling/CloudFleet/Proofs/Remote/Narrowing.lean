import CloudFleet.Proofs.Remote.Processes

/-!
# Narrowing a session

What a history says of the host list are the lists that the session was aimed at (`Session.aims`). They are `Nested` if
every list that is narrowed to is left for the list of before, however often a session is narrowed further in between.

`Session.Restores`: however a program ends, the session has its host list back, the lists it was aimed at in between are
nested, and the instances behind the addresses stayed; where a program waits for ever the lists so far are at least of
the kind allowed. Programs that aim nowhere restore the list (`Quiet.restores`), so do programs one after the other
(`Restores.bind`), and so does `Session.narrowed` (`Restores.narrowed`). A `Nest` is any arrangement of narrowings and
of work on the hosts between them; all of them restore the list (`restores_nest`).
-/

set_option autoImplicit false

namespace CloudFleet.Session

open Program (Keeps NeverCrashes)

variable {σ ε ε' α β : Type}

/-! ## Lists that a session is aimed at -/

/-- The hosts that a session was aimed at. -/
def aim? : Happening Session → Option (List String)
  | .changed (Change.aimed hosts) => some hosts
  | _ => none

/-- The host lists that a session was aimed at, first things first. -/
def aims (h : List (Happening Session)) : List (List String) := h.filterMap aim?

theorem aims_append (h k : List (Happening Session)) : aims (h ++ k) = aims h ++ aims k := List.filterMap_append

/-- From a list each narrowing comes back to it, and so does each narrowing in between to its own. -/
inductive Nested : List String → List (List String) → Prop
  | nil (level : List String) : Nested level []
  | narrow {level hosts : List String} {inside rest : List (List String)} :
      Nested hosts inside → Nested level rest → Nested level (hosts :: (inside ++ level :: rest))

theorem Nested.append {level : List String} {before after : List (List String)} (h : Nested level before)
    (k : Nested level after) : Nested level (before ++ after) := by
  induction h with
  | nil => exact k
  | narrow hinside _ _ ih =>
    rw [List.cons_append, List.append_assoc, List.cons_append]
    exact .narrow hinside (ih k)

/-! ## Coming back -/

/-- From one run to another the session was aimed at hosts of the kind allowed only, and what instances are behind
addresses stayed. -/
structure Trail (allowed : List String → Prop) (s t : Run Session σ) (new : List (Happening Session)) : Prop where
  history : t.history = s.history ++ new
  ids : t.own.ids = s.own.ids
  allowed : ∀ hosts ∈ aims new, allowed hosts

/-- However the program ends, unless it waits for ever, the session is back at its hosts. -/
def Restores (w : World σ) (allowed : List String → Prop) (p : Program Session ε α) (s : Run Session σ) : Prop :=
  ∃ new, Trail allowed s (p.run w s).2 new
    ∧ ((p.run w s).1 ≠ .stalled → (p.run w s).2.own.hosts = s.own.hosts ∧ Nested s.own.hosts (aims new))

/-- Neither hosts nor instances change, and the session is aimed nowhere. -/
def Put (hosts : List String) (ids : List (String × InstanceId)) (aimed : List (List String)) (t : Run Session σ) :
    Prop :=
  t.own.hosts = hosts ∧ t.own.ids = ids ∧ aims t.history = aimed

/-- The program leaves the hosts alone. -/
def Quiet (w : World σ) (p : Program Session ε α) : Prop := ∀ hosts ids aimed, Keeps w (Put hosts ids aimed) p

section Rules

variable {w : World σ} {allowed : List String → Prop} {s : Run Session σ}

theorem put_ask (hosts : List String) (ids : List (String × InstanceId)) (aimed : List (List String))
    (t : Run Session σ) (r : Request) (h : Put hosts ids aimed t) : Put hosts ids aimed (t.ask w r) := by
  obtain ⟨hhosts, hids, haimed⟩ := h
  refine ⟨hhosts, hids, ?_⟩
  rw [Run.history_ask, aims_append, haimed]
  exact List.append_nil _

/-- A change that sets no hosts. -/
theorem put_change (hosts : List String) (ids : List (String × InstanceId)) (aimed : List (List String)) {c : Change}
    (hc : ∀ own : Session, (own.apply c).hosts = own.hosts ∧ (own.apply c).ids = own.ids)
    (hnone : aim? (.changed c) = none) (t : Run Session σ) (h : Put hosts ids aimed t) :
    Put hosts ids aimed (t.change c) := by
  obtain ⟨hhosts, hids, haimed⟩ := h
  refine ⟨(hc t.own).1.trans hhosts, (hc t.own).2.trans hids, ?_⟩
  rw [Run.history_change, aims_append, haimed, aims, List.filterMap_cons_none hnone]
  exact List.append_nil _

theorem Quiet.restores {p : Program Session ε α} (hp : Quiet w p) (s : Run Session σ) : Restores w allowed p s := by
  obtain ⟨new, hh, -⟩ := Program.run_history w p s
  obtain ⟨hhosts, hids, haimed⟩ := hp s.own.hosts s.own.ids (aims s.history) s ⟨rfl, rfl, rfl⟩
  rw [hh, aims_append] at haimed
  have hnone := List.append_right_eq_self.mp haimed
  exact ⟨new, ⟨hh, hids, by simp [hnone]⟩, fun _ => ⟨hhosts, hnone ▸ .nil _⟩⟩

/-- One program after another, the second one on the hosts of the first. -/
theorem Restores.bind {p : Program Session ε α} {f : α → Program Session ε β} (hp : Restores w allowed p s)
    (hf : ∀ a t, p.run w s = (.returned a, t) → t.own.hosts = s.own.hosts → Restores w allowed (f a) t) :
    Restores w allowed (p >>= f) s := by
  obtain ⟨new, htrail, hback⟩ := hp
  unfold Restores
  rw [Program.run_andThen]
  cases hr : p.run w s with
  | mk ending t =>
    rw [hr] at htrail hback
    cases ending with
    | returned a =>
      obtain ⟨hhosts, hnested⟩ := hback (by simp)
      obtain ⟨later, htrail', hback'⟩ := hf a t hr hhosts
      refine ⟨new ++ later, ⟨?_, htrail'.ids.trans htrail.ids, fun hosts hm => ?_⟩, fun hending => ?_⟩
      · rw [htrail'.history, htrail.history, List.append_assoc]
      · rw [aims_append] at hm
        exact (List.mem_append.mp hm).elim (htrail.allowed hosts) (htrail'.allowed hosts)
      · obtain ⟨hhosts', hnested'⟩ := hback' hending
        rw [aims_append]
        exact ⟨hhosts'.trans hhosts, hnested.append (hhosts ▸ hnested')⟩
    | failed e => exact ⟨new, htrail, fun _ => hback (by simp)⟩
    | crashed => exact ⟨new, htrail, fun _ => hback (by simp)⟩
    | stalled => exact ⟨new, htrail, fun h => absurd rfl h⟩

theorem Restores.attempt {p : Program Session ε α} (hp : Restores w allowed p s) :
    Restores w allowed (p.attempt : Program Session ε' (Except ε α)) s := by
  obtain ⟨new, htrail, hback⟩ := hp
  unfold Restores
  rw [Program.run_attempt]
  cases hr : p.run w s with
  | mk ending t =>
    rw [hr] at htrail hback
    cases ending with
    | stalled => exact ⟨new, htrail, fun h => absurd rfl h⟩
    | _ => exact ⟨new, htrail, fun _ => hback (by simp)⟩

theorem Restores.mapError {p : Program Session ε α} (hp : Restores w allowed p s) (f : ε → ε') :
    Restores w allowed (p.mapError f) s := by
  refine hp.attempt.bind fun x t _ _ => ?_
  cases x <;> exact Quiet.restores (fun _ _ _ => Keeps.finish _) t

/-- A program that begins by consulting the memory goes on with the memory that it finds. -/
theorem Restores.consult {f : Session → Program Session ε α} (h : Restores w allowed (f s.own) s) :
    Restores w allowed (Program.memory >>= f) s := h

/-- What is done on other hosts comes back to those of before. -/
theorem Restores.narrowed {hosts : List String} {p : Program Session ε α} (hhosts : allowed hosts)
    (hbefore : allowed s.own.hosts) (hcrash : NeverCrashes w p)
    (hp : Restores w allowed p (s.change (Change.aimed hosts))) : Restores w allowed (Session.narrowed hosts p) s := by
  obtain ⟨new, htrail, hback⟩ := hp
  have hcrash := hcrash (s.change (Change.aimed hosts))
  have hrun : (Session.narrowed hosts p).run w s = (p.attempt >>= fun result =>
      Session.widen s.own.hosts >>= fun _ => Program.ofExcept result).run w (s.change (Change.aimed hosts)) := rfl
  unfold Restores
  rw [hrun, Program.run_andThen, Program.run_attempt]
  cases hr : p.run w (s.change (Change.aimed hosts)) with
  | mk ending t =>
    rw [hr] at htrail hback hcrash
    have hhistory : t.history = s.history ++ .changed (Change.aimed hosts) :: new := by
      rw [htrail.history, Run.history_change, List.append_assoc]
      rfl
    have hinside : ∀ level ∈ aims (.changed (Change.aimed hosts) :: new), allowed level :=
      List.forall_mem_cons.mpr ⟨hhosts, htrail.allowed⟩
    -- back at the hosts of before, with one change more
    have hwidened (hnested : Nested hosts (aims new)) {ending : Ending ε α} :
        ∃ k, Trail allowed s (t.change (Change.aimed s.own.hosts)) k
          ∧ (ending ≠ .stalled → (t.change (Change.aimed s.own.hosts)).own.hosts = s.own.hosts
            ∧ Nested s.own.hosts (aims k)) := by
      refine ⟨.changed (Change.aimed hosts) :: (new ++ [.changed (Change.aimed s.own.hosts)]), ⟨?_, htrail.ids, ?_⟩, ?_⟩
      · rw [Run.history_change, hhistory, List.append_assoc]
        rfl
      · rw [← List.cons_append, aims_append]
        exact List.forall_mem_append.mpr ⟨hinside, List.forall_mem_singleton.mpr hbefore⟩
      · refine fun _ => ⟨rfl, ?_⟩
        have haims : aims (.changed (Change.aimed hosts) :: (new ++ [.changed (Change.aimed s.own.hosts)]))
            = hosts :: (aims new ++ s.own.hosts :: []) := congrArg (hosts :: ·) (aims_append _ _)
        rw [haims]
        exact .narrow hnested (.nil _)
    cases ending with
    | returned a => exact hwidened (hback (by simp)).2
    | failed e => exact hwidened (hback (by simp)).2
    | crashed => exact absurd rfl hcrash
    | stalled => exact ⟨_, ⟨hhistory, htrail.ids, hinside⟩, fun h => absurd rfl h⟩

end Rules

/-! ## Work on the hosts -/

/-- Something done on the hosts of a session. -/
inductive Use
  | run (script : Script) (options : RunOptions)
  | spawn (command : String) (options : RunOptions)
  | copyTo (localPath : Path) (remotePath : String)
  | copyFrom (remotePath : String) (dir : Path)
  | closeAll

/-- The program of a use, with the result of a script. -/
def Use.perform : Use → SessionProgram (Option RunResult)
  | run script options => do
    let result ← Session.runScript script options
    pure (some result)
  | spawn command options => do
    Session.spawn command options
    pure none
  | copyTo localPath remotePath => do
    Session.copyTo localPath remotePath
    pure none
  | copyFrom remotePath dir => do
    let _ ← Session.copyFrom remotePath dir
    pure none
  | closeAll => do
    let _ ← Session.closeAll
    pure none

/-- Uses and narrowings, one after the other and within each other. What follows may depend on how a step ended, so a
failure may end the level that it happens on or be ignored, and on the hosts of the level. -/
inductive Nest
  | done
  | fail (error : RemoteError)
  | look (next : List String → Nest)
  | use (what : Use) (next : Except RemoteError (Option RunResult) → Nest)
  | narrow (hosts : List String) (inside : Nest) (next : Except RemoteError Unit → Nest)

/-- The program of a nest. -/
def Nest.perform : Nest → SessionProgram Unit
  | done => pure ()
  | fail error => .raise error
  | look next => do
    let s ← Program.memory
    (next s.hosts).perform
  | use what next => do
    let result ← what.perform.attempt
    (next result).perform
  | narrow hosts inside next => do
    let result ← (Session.narrowed hosts inside.perform).attempt
    (next result).perform

section Uses

variable (w : World σ)

theorem quiet_asked (hosts : List String) (ids : List (String × InstanceId)) (aimed : List (List String))
    (t : Run Session σ) (r : Request) (_ : r.handles = false) (h : Put hosts ids aimed t) :
    Put hosts ids aimed (t.ask w r) := put_ask hosts ids aimed t r h

theorem quiet_spawn (command : String) (options : RunOptions) : Quiet w (Session.spawn command options) := by
  intro hosts ids aimed
  have hlocal := local_of_asked (quiet_asked w hosts ids aimed)
  have hkeep : ∀ entries, Keeps w (Put hosts ids aimed) (keepStarted command entries) := by
    intro entries
    induction entries with
    | nil => exact Keeps.pure _
    | cons entry entries ih =>
      obtain ⟨host, answer⟩ := entry
      cases answer with
      | ok process =>
        have hstarted := put_change (σ := σ) hosts ids aimed (c := .started process) (fun _ => ⟨rfl, rfl⟩) rfl
        exact (Keeps.remember hstarted).bind fun _ => ih
      | error e => exact (keeps_log hlocal _ _).bind fun _ => ih.bind fun _ => Keeps.pure _
  refine Keeps.memory.bind fun s => (Keeps.ofExcept _).bind fun commands => ?_
  have hcalls : ∀ entry ∈ commands, Keeps w (Put hosts ids aimed)
      (.request (.shell (.spawn entry.1 entry.2 options.pty)) : SessionProgram (Except TransportError Process)) :=
    fun entry _ => Keeps.request fun t => put_ask hosts ids aimed t _
  refine (Keeps.collect commands hcalls).bind fun answers => ?_
  refine (hkeep _).bind fun failure => ?_
  cases failure with
  | none => exact Keeps.pure _
  | some e => exact Keeps.raise _

theorem quiet_closeAll : Quiet w (Session.closeAll : Program Session ε (List (Except TransportError Unit))) := by
  intro hosts ids aimed
  have hreleased := put_change (σ := σ) hosts ids aimed (c := .released) (fun _ => ⟨rfl, rfl⟩) rfl
  have hrelease : Keeps w (Put hosts ids aimed) (Session.release : Program Session ε (List Process)) :=
    Keeps.memory.bind fun s => (Keeps.remember hreleased).bind fun _ => Keeps.pure _
  exact hrelease.bind fun processes => Keeps.collect processes fun _ _ =>
    Keeps.request fun t => put_ask hosts ids aimed t _

theorem Use.quiet (u : Use) : Quiet w u.perform := by
  intro hosts ids aimed
  have hasked := quiet_asked w hosts ids aimed
  cases u with
  | run script options => exact (keeps_runScript hasked script options).bind fun _ => Keeps.pure _
  | spawn command options => exact (quiet_spawn w command options hosts ids aimed).bind fun _ => Keeps.pure _
  | copyTo localPath remotePath => exact (keeps_copyTo hasked localPath remotePath).bind fun _ => Keeps.pure _
  | copyFrom remotePath dir => exact (keeps_copyFrom hasked remotePath dir).bind fun _ => Keeps.pure _
  | closeAll => exact (quiet_closeAll w hosts ids aimed).bind fun _ => Keeps.pure _

theorem neverCrashes_awaitAll (limit : Option Duration) (ends : List (Completion α)) :
    NeverCrashes w (awaitAll limit ends) := by
  unfold awaitAll
  split
  · exact .bind .request fun _ => .pure _
  · split
    · exact .bind .request fun _ => .pure _
    · exact .bind .request fun _ => .raise _
  · exact .bind .request fun _ => .raise _
  · exact .stall

theorem neverCrashes_judge (options : RunOptions) (command : String) (outcomes : List Outcome) :
    NeverCrashes w (judge options command outcomes) := by
  unfold judge
  split
  · exact .raise _
  · dsimp only
    split
    · exact .bind (.each fun _ => .request) fun _ => .raise _
    · exact .pure _

theorem neverCrashes_run (command : String) (options : RunOptions) : NeverCrashes w (Session.run command options) :=
  .bind .memory fun _ => .bind (.ofExcept _) fun _ => .bind (.collect fun _ => .request) fun _ =>
    .bind (neverCrashes_awaitAll w _ _) fun _ => neverCrashes_judge w _ _ _

theorem neverCrashes_runScript (script : Script) (options : RunOptions) :
    NeverCrashes w (runScript script options) := by
  cases script with
  | single command => exact neverCrashes_run w command options
  | sequence commands =>
    have hall : ∀ last, NeverCrashes w (Session.runAll options last commands) := by
      induction commands with
      | nil => exact fun last => .pure last
      | cons command commands ih => exact fun last => .bind (neverCrashes_run w command options) fun result => ih result
    exact hall _

theorem neverCrashes_settleCopies (hosts : List String) (answers : List (Except TransportError Unit)) :
    NeverCrashes w (settleCopies hosts answers) := by
  unfold settleCopies
  split
  · exact .raise _
  · exact .pure _

theorem neverCrashes_copyTo (localPath : Path) (remotePath : String) :
    NeverCrashes w (Session.copyTo localPath remotePath) := by
  refine .bind .memory fun s => ?_
  split
  · exact .raise _
  · exact .bind (.collect fun _ => .request) fun _ => neverCrashes_settleCopies w _ _

theorem neverCrashes_copyFrom (remotePath : String) (dir : Path) :
    NeverCrashes w (Session.copyFrom remotePath dir) := by
  refine .bind .memory fun s => ?_
  split
  · exact .raise _
  · exact .bind (.collect fun _ => .request) fun _ => .bind (neverCrashes_settleCopies w _ _) fun _ => .pure _

theorem neverCrashes_spawn (command : String) (options : RunOptions) :
    NeverCrashes w (Session.spawn command options) := by
  have hkeep : ∀ entries, NeverCrashes w (keepStarted command entries) := by
    intro entries
    induction entries with
    | nil => exact .pure _
    | cons entry entries ih =>
      obtain ⟨host, answer⟩ := entry
      cases answer with
      | ok process => exact .bind .remember fun _ => ih
      | error e => exact .bind .request fun _ => .bind ih fun _ => .pure _
  refine .bind .memory fun _ => .bind (.ofExcept _) fun _ => .bind (.collect fun _ => .request) fun _ => ?_
  refine .bind (hkeep _) fun failure => ?_
  cases failure with
  | none => exact .pure _
  | some e => exact .raise _

theorem Use.neverCrashes (u : Use) : NeverCrashes w u.perform := by
  cases u with
  | run script options => exact .bind (neverCrashes_runScript w script options) fun _ => .pure _
  | spawn command options => exact .bind (neverCrashes_spawn w command options) fun _ => .pure _
  | copyTo localPath remotePath => exact .bind (neverCrashes_copyTo w localPath remotePath) fun _ => .pure _
  | copyFrom remotePath dir => exact .bind (neverCrashes_copyFrom w remotePath dir) fun _ => .pure _
  | closeAll =>
    have hrelease : NeverCrashes w (Session.release : SessionProgram (List Process)) :=
      .bind .memory fun _ => .bind .remember fun _ => .pure _
    exact .bind (.bind hrelease fun _ => .collect fun _ => .request) fun _ => .pure _

theorem neverCrashes_narrowed (hosts : List String) {p : Program Session ε α} (hp : NeverCrashes w p) :
    NeverCrashes w (Session.narrowed hosts p) :=
  .bind (.bind .memory fun _ => .bind .remember fun _ => .pure _) fun _ =>
    .bind hp.attempt fun _ => .bind .remember fun _ => .ofExcept _

theorem Nest.neverCrashes (n : Nest) : NeverCrashes w n.perform := by
  induction n with
  | done => exact .pure _
  | fail e => exact .raise e
  | look next ih => exact .bind .memory fun s => ih s.hosts
  | use what next ih => exact .bind (what.neverCrashes w).attempt fun result => ih result
  | narrow hosts inside next ihinside ihnext =>
    exact .bind (neverCrashes_narrowed w hosts ihinside).attempt fun result => ihnext result

/-- However narrowings and uses are nested, each level has its hosts back when it is left. -/
theorem restores_nest (n : Nest) (s : Run Session σ) : Restores w (fun _ => True) n.perform s := by
  induction n generalizing s with
  | done => exact Quiet.restores (fun _ _ _ => Keeps.pure _) s
  | fail e => exact Quiet.restores (fun _ _ _ => Keeps.raise e) s
  | look next ih => exact .consult (ih s.own.hosts s)
  | use what next ih => exact ((what.quiet w).restores s).attempt.bind fun result t _ _ => ih result t
  | narrow hosts inside next ihinside ihnext =>
    have hnarrowed := (ihinside (s.change (Change.aimed hosts))).narrowed trivial trivial (inside.neverCrashes w)
    exact hnarrowed.attempt.bind fun result t _ _ => ihnext result t

end Uses

end CloudFleet.Session
