import CloudFleet.Proofs.Fleet.Operation
import CloudFleet.Proofs.Fleet.Registry

/-!
# Taking over observations, and probing

What `Fleet.observe` and `Fleet.probeRunning` do to a run. An observation of an unknown instance is its announcement,
its addition and its loading; of a known one, its loading alone (`run_observe`). Probing changes nothing before every
candidate was asked (`run_probes`), and confirms the candidates whose address answered (`run_probeRunning`).

What a run asked of its surroundings are the questions of its history; `Asks` says by which of them it grew.

Only an observation adds instances, and only those that are not known. So no operation ever lists one twice, and a
`FleetRun`, whose registry lists none twice, is again one after any operations.
-/

set_option autoImplicit false

namespace CloudFleet

variable {σ ε : Type}

/-- Whether the record names a state. -/
def InstanceRecord.readable (r : InstanceRecord) : Bool := (InstanceState.parse? r.state).isSome

/-- The numbers of regions and instances, if the request announces a refresh. -/
def Request.refreshed? : Request → Option (Nat × Nat)
  | .announce (.refreshed regions instances) => some (regions, instances)
  | _ => none

theorem Request.refreshed?_of_not_tells {r : Request} (h : r.tells = false) : r.refreshed? = none := by
  cases r <;> first | rfl | cases h

namespace Fleet

open Program (Keeps)

/-! ## Questions -/

/-- The refreshes announced, with their numbers of regions and instances. -/
def refreshes (h : List (Happening Fleet)) : List (Nat × Nat) := (requests h).filterMap Request.refreshed?

theorem refreshes_append (h k : List (Happening Fleet)) : refreshes (h ++ k) = refreshes h ++ refreshes k := by
  simp [refreshes]

theorem refreshes_asked {r : Request} (hr : r.refreshed? = none) (reply : r.Reply) :
    refreshes [.asked r reply] = [] := by
  simp [refreshes, requests, exchanges, hr]

/-- From one run to another these questions were asked and answered, and no refresh was announced. -/
structure Asks (s t : Run Fleet σ) (asked : List ((r : Request) × r.Reply)) : Prop where
  questions_eq : questions t.history = questions s.history ++ asked
  refreshes_eq : refreshes t.history = refreshes s.history

namespace Asks

variable {s t u : Run Fleet σ} {xs ys : List ((r : Request) × r.Reply)}

theorem refl (s : Run Fleet σ) : Asks s s [] := ⟨by simp, rfl⟩

theorem trans (hst : Asks s t xs) (htu : Asks t u ys) : Asks s u (xs ++ ys) :=
  ⟨by rw [htu.questions_eq, hst.questions_eq, List.append_assoc], htu.refreshes_eq.trans hst.refreshes_eq⟩

theorem ask (w : World σ) (s : Run Fleet σ) {r : Request} (hr : r.tells = false) :
    Asks s (s.ask w r) [⟨r, s.reply w r⟩] := by
  constructor
  · rw [Run.history_ask, questions_append, questions_asked hr]
  · rw [Run.history_ask, refreshes_append, refreshes_asked (Request.refreshed?_of_not_tells hr), List.append_nil]

theorem tell (w : World σ) (s : Run Fleet σ) {r : Request} (hr : r.tells = true) (hnone : r.refreshed? = none) :
    Asks s (s.ask w r) [] := by
  constructor
  · rw [Run.history_ask, questions_append, questions_told hr]
  · rw [Run.history_ask, refreshes_append, refreshes_asked hnone, List.append_nil]

theorem change (s : Run Fleet σ) (c : Change) : Asks s (s.change c) [] := by
  constructor
  · rw [Run.history_change, questions_append, questions_changed]
  · rw [Run.history_change, refreshes_append]
    exact List.append_nil _

end Asks

/-! ## One change for each of some instances -/

/-- The run after one change for each of the identifiers. -/
def changeEach (s : Run Fleet σ) (change : InstanceId → Change) (ids : List InstanceId) : Run Fleet σ :=
  ids.foldl (fun s id => s.change (change id)) s

/-- The fleet with the instances of the identifiers updated. -/
def updateEach (f : Fleet) (ids : List InstanceId) (g : Instance → Instance) : Fleet :=
  { f with instances := f.instances.map fun i => if i.id ∈ ids then g i else i }

section ChangeEach

variable {change : InstanceId → Change}

theorem run_changeEach (w : World σ) (change : InstanceId → Change) (ids : List InstanceId) (s : Run Fleet σ) :
    (Program.each (fun id => .remember (change id)) ids : Program Fleet ε Unit).run w s
      = (.returned (), changeEach s change ids) := by
  induction ids generalizing s with
  | nil => rfl
  | cons id ids ih =>
    rw [Program.each, Program.run_andThen_of_returned (Program.run_remember w _ s)]
    exact ih _

theorem asks_changeEach (ids : List InstanceId) (s : Run Fleet σ) : Asks s (changeEach s change ids) [] := by
  induction ids generalizing s with
  | nil => exact .refl s
  | cons id ids ih => exact (Asks.change s (change id)).trans (ih _)

/-- Where the same update twice is the update once, and every change is that update of its own instance. -/
theorem own_changeEach {g : Instance → Instance} (hchange : ∀ f : Fleet, ∀ id, f.apply (change id) = f.update id g)
    (hid : ∀ i, (g i).id = i.id) (hg : ∀ i, g (g i) = g i) (ids : List InstanceId) (s : Run Fleet σ) :
    (changeEach s change ids).own = s.own.updateEach ids g := by
  induction ids generalizing s with
  | nil => simp [changeEach, updateEach]
  | cons id ids ih =>
    have hstep : (changeEach s change (id :: ids)).own = (s.own.apply (change id)).updateEach ids g := ih _
    rw [hstep, hchange]
    simp only [updateEach, update, List.map_map, Fleet.mk.injEq, and_true]
    refine List.map_congr_left fun i _ => ?_
    by_cases h : i.id = id <;> by_cases hm : i.id ∈ ids <;> simp_all

end ChangeEach

/-! ## Observations -/

/-- The run after an instance is on the list: announced and added, unless it is there already. -/
def listed (w : World σ) (region : Region) (o : Observation) (s : Run Fleet σ) : Run Fleet σ :=
  if s.own.knows o.record.id then s
  else (s.ask w (.announce (.discovered o.record.id region))).change (Change.added o.record.id region o.state)

theorem listed_of_knows (w : World σ) (region : Region) {o : Observation} {s : Run Fleet σ}
    (h : s.own.knows o.record.id = true) : listed w region o s = s := if_pos h

theorem listed_of_not_knows (w : World σ) (region : Region) {o : Observation} {s : Run Fleet σ}
    (h : ¬s.own.knows o.record.id = true) : listed w region o s =
      (s.ask w (.announce (.discovered o.record.id region))).change (Change.added o.record.id region o.state) :=
  if_neg h

theorem run_observe (w : World σ) (region : Region) (o : Observation) (s : Run Fleet σ) :
    (observe region o : Program Fleet ε Unit).run w s
      = (.returned (), (listed w region o s).change (Change.loaded o.record o.state o.status)) := by
  unfold observe
  rw [Program.run_andThen, Program.run_memory]
  dsimp only
  by_cases h : s.own.knows o.record.id = true
  · rw [if_pos h, listed_of_knows w region h]
    rfl
  · rw [if_neg h, listed_of_not_knows w region h]
    rfl

/-- What is on the list is known. -/
theorem knows_listed (w : World σ) (region : Region) (o : Observation) (s : Run Fleet σ) :
    (listed w region o s).own.knows o.record.id = true := by
  by_cases h : s.own.knows o.record.id = true
  · rw [listed_of_knows w region h]
    exact h
  · rw [listed_of_not_knows w region h, knows_iff]
    exact ⟨.new o.record.id region o.state, by simp [instances_added], rfl⟩

/-! ## Probes -/

/-- What happened was nothing but requests. -/
def OnlyAsked (h : List (Happening Fleet)) : Prop := ∀ c, Happening.changed c ∉ h

/-- Requests alone change nothing. -/
theorem OnlyAsked.replay_eq {h : List (Happening Fleet)} (hh : OnlyAsked h) (f : Fleet) : replay f h = f := by
  induction h generalizing f with
  | nil => rfl
  | cons happening h ih =>
    cases happening with
    | asked r reply => exact ih (fun c hc => hh c (List.mem_cons_of_mem _ hc)) f
    | changed c => exact absurd List.mem_cons_self (hh c)

/-- From one run to another nothing happened but requests. -/
structure Asking (s t : Run Fleet σ) (new : List (Happening Fleet)) : Prop where
  own : t.own = s.own
  history : t.history = s.history ++ new
  asked : OnlyAsked new

theorem Asking.refl (s : Run Fleet σ) : Asking s s [] := ⟨rfl, by simp, by simp [OnlyAsked]⟩

theorem Asking.ask (w : World σ) (s : Run Fleet σ) (r : Request) : Asking s (s.ask w r) [.asked r (s.reply w r)] :=
  ⟨rfl, rfl, by simp [OnlyAsked]⟩

theorem Asking.trans {s t u : Run Fleet σ} {h k : List (Happening Fleet)} (hst : Asking s t h) (htu : Asking t u k) :
    Asking s u (h ++ k) := by
  refine ⟨htu.own.trans hst.own, ?_, fun c hc => ?_⟩
  · rw [htu.history, hst.history, List.append_assoc]
  · rcases List.mem_append.mp hc with hc | hc
    · exact hst.asked c hc
    · exact htu.asked c hc

/-- An address was probed and answered. -/
def Answered (address : String) (h : List (Happening Fleet)) : Prop :=
  ∃ port limit, Happening.asked (.probe address port limit) .opened ∈ h

/-- What a probe does after the attempt to connect. -/
def noting (c : FleetConfig) (address : String) (connection : Connection) : Program Fleet ε Bool := do
  match connection.note? address c.probePort c.probeTimeout with
  | some line => Program.log line.level line.text
  | none => pure ()
  pure connection.isOpen

/-- A probe is one question, and says yes if the address answered. -/
theorem run_probe (w : World σ) (c : FleetConfig) (address : String) (s : Run Fleet σ) :
    ∃ (connection : Connection) (t : Run Fleet σ) (new : List (Happening Fleet)),
      (probe c address : Program Fleet ε Bool).run w s = (.returned connection.isOpen, t) ∧ Asking s t new
        ∧ Asks s t [⟨.probe address c.probePort c.probeTimeout, connection⟩] := by
  let r := Request.probe address c.probePort c.probeTimeout
  have hasks : Asks s (s.ask w r) [⟨r, s.reply w r⟩] := .ask w s rfl
  have hasking : Asking s (s.ask w r) [.asked r (s.reply w r)] := .ask w s r
  have hrun := Program.run_andThen_of_returned (ε := ε) (Program.run_request w r s) fun connection : Connection =>
    noting c address connection
  cases hnote : Connection.note? address c.probePort c.probeTimeout (s.reply w r) with
  | none =>
    refine ⟨s.reply w r, s.ask w r, _, hrun.trans ?_, hasking, hasks⟩
    rw [noting, hnote]
    rfl
  | some line =>
    refine ⟨s.reply w r, (s.ask w r).ask w (.log line), _, hrun.trans ?_, hasking.trans (.ask w _ (.log line)), ?_⟩
    · rw [noting, hnote]
      rfl
    · simpa using hasks.trans (.tell w (s.ask w r) (r := .log line) rfl rfl)

/-- The questions that probe the candidates, with what came of them. -/
def probesOf (c : FleetConfig) (candidates : List (InstanceId × String)) (connections : List Connection) :
    List ((r : Request) × r.Reply) :=
  List.zipWith (fun candidate connection => ⟨.probe candidate.2 c.probePort c.probeTimeout, connection⟩)
    candidates connections

/-- The candidates whose address answered. -/
def answering (candidates : List (InstanceId × String)) (connections : List Connection) : List (InstanceId × String) :=
  ((candidates.zip connections).filter fun x => x.2.isOpen).map Prod.fst

theorem run_probes (w : World σ) (c : FleetConfig) (candidates : List (InstanceId × String)) (s : Run Fleet σ) :
    ∃ connections t new, (Program.collect (fun candidate => probe c candidate.2) candidates :
        Program Fleet ε (List Bool)).run w s = (.returned (connections.map Connection.isOpen), t)
      ∧ connections.length = candidates.length ∧ Asking s t new ∧ Asks s t (probesOf c candidates connections) := by
  induction candidates generalizing s with
  | nil => exact ⟨[], s, [], rfl, rfl, .refl s, .refl s⟩
  | cons candidate candidates ih =>
    obtain ⟨connection, t, new, hr, ha, hq⟩ := run_probe (ε := ε) w c candidate.2 s
    obtain ⟨connections, u, later, hrs, hlength, has, hqs⟩ := ih t
    refine ⟨connection :: connections, u, new ++ later, ?_, ?_, ha.trans has, hq.trans hqs⟩
    · rw [Program.collect, Program.run_andThen, hr]
      dsimp only
      rw [Program.run_andThen, hrs]
      rfl
    · rw [List.length_cons, List.length_cons, hlength]

/-- A candidate whose address answered was probed, and the probe was answered. -/
theorem mem_probesOf_of_mem_answering {c : FleetConfig} {candidates : List (InstanceId × String)}
    {connections : List Connection} {x : InstanceId × String} (hx : x ∈ answering candidates connections) :
    x ∈ candidates
      ∧ ⟨.probe x.2 c.probePort c.probeTimeout, Connection.opened⟩ ∈ probesOf c candidates connections := by
  obtain ⟨⟨candidate, connection⟩, hm, rfl⟩ := List.mem_map.mp hx
  obtain ⟨hm, hopen⟩ := List.mem_filter.mp hm
  have hopen : connection = .opened := by simpa [Connection.isOpen] using hopen
  refine ⟨(List.of_mem_zip hm).1, ?_⟩
  rw [probesOf, ← List.map_uncurry_zip_eq_zipWith]
  exact List.mem_map.mpr ⟨(candidate, connection), hm, by rw [hopen]; rfl⟩

/-- An address that answered a probe is one that answered. -/
theorem answered_of_mem_answering {c : FleetConfig} {candidates : List (InstanceId × String)}
    {connections : List Connection} {s t : Run Fleet σ} {new : List (Happening Fleet)}
    (hnew : t.history = s.history ++ new) (ha : Asks s t (probesOf c candidates connections))
    {x : InstanceId × String} (hx : x ∈ answering candidates connections) :
    x ∈ candidates ∧ Answered x.2 new := by
  obtain ⟨hm, hprobe⟩ := mem_probesOf_of_mem_answering (c := c) hx
  have hq : questions new = probesOf c candidates connections := by
    have := ha.questions_eq
    rw [hnew, questions_append] at this
    exact List.append_cancel_left this
  exact ⟨hm, c.probePort, c.probeTimeout, mem_of_mem_questions (hq ▸ hprobe)⟩

/-- The run after the instances are confirmed one after the other. -/
def confirmAll (s : Run Fleet σ) (ids : List InstanceId) : Run Fleet σ := changeEach s Change.confirmed ids

theorem run_confirm (w : World σ) (results : List ((InstanceId × String) × Bool)) (s : Run Fleet σ) :
    (Program.each (fun result => if result.2 then .remember (Change.confirmed result.1.1) else pure ()) results :
        Program Fleet ε Unit).run w s
      = (.returned (), confirmAll s ((results.filter Prod.snd).map fun result => result.1.1)) := by
  induction results generalizing s with
  | nil => rfl
  | cons result results ih =>
    rw [Program.each, Program.run_andThen]
    by_cases h : result.2 = true
    · rw [if_pos h, Program.run_remember, List.filter_cons_of_pos h]
      exact ih _
    · rw [if_neg h, Program.run_pure, List.filter_cons_of_neg h]
      exact ih _

/-- The instances of the identifiers, confirmed if they can be. -/
def confirmEach (f : Fleet) (ids : List InstanceId) : Fleet :=
  { f with instances := f.instances.map fun i => if i.id ∈ ids then i.confirm else i }

/-- What was confirmed is not changed by another confirmation. -/
theorem confirm_confirm (i : Instance) : i.confirm.confirm = i.confirm := rfl

theorem own_confirmAll (ids : List InstanceId) (s : Run Fleet σ) : (confirmAll s ids).own = s.own.confirmEach ids :=
  own_changeEach (g := Instance.confirm) (fun _ _ => rfl) (fun _ => rfl) confirm_confirm ids s

/-- Once the candidates were asked, those whose address answered are confirmed. -/
theorem run_probeRunning_of_asked {w : World σ} {c : FleetConfig} {groups : List Group} {s t : Run Fleet σ}
    {connections : List Connection}
    (hr : (Program.collect (fun candidate => probe c candidate.2) (s.own.candidates groups) :
      Program Fleet ε (List Bool)).run w s = (.returned (connections.map Connection.isOpen), t)) :
    (probeRunning c groups : Program Fleet ε Unit).run w s
      = (.returned (), confirmAll t ((answering (s.own.candidates groups) connections).map Prod.fst)) := by
  have hids : (((s.own.candidates groups).zip (connections.map Connection.isOpen)).filter Prod.snd).map
      (fun result => result.1.1) = (answering (s.own.candidates groups) connections).map Prod.fst := by
    rw [answering, List.zip_map_right, List.filter_map, List.map_map, List.map_map]
    rfl
  unfold probeRunning
  rw [Program.run_andThen, Program.run_memory]
  dsimp only
  rw [Program.run_andThen, hr]
  dsimp only
  rw [run_confirm, hids]

/-- Probing asks all candidates first, and then confirms those whose address answered. -/
theorem run_probeRunning (w : World σ) (c : FleetConfig) (groups : List Group) (s : Run Fleet σ) :
    ∃ connections t new, (probeRunning c groups : Program Fleet ε Unit).run w s
        = (.returned (), confirmAll t ((answering (s.own.candidates groups) connections).map Prod.fst))
      ∧ connections.length = (s.own.candidates groups).length ∧ Asking s t new
      ∧ Asks s t (probesOf c (s.own.candidates groups) connections) := by
  obtain ⟨connections, t, new, hr, hlength, ha, hq⟩ := run_probes (ε := ε) w c (s.own.candidates groups) s
  exact ⟨connections, t, new, run_probeRunning_of_asked hr, hlength, ha, hq⟩

/-- A candidate is an instance of the groups that runs and is not confirmed, with its address. -/
theorem mem_candidates_iff {f : Fleet} {groups : List Group} {id : InstanceId} {address : String} :
    (id, address) ∈ f.candidates groups ↔ ∃ i ∈ f.instances, i.id = id ∧ i.state = .running
      ∧ i.address = some address ∧ inGroups groups i = true ∧ i.reachable = false := by
  simp only [candidates, List.mem_filterMap, filter, List.mem_filter, Bool.and_eq_true, beq_iff_eq,
    Bool.not_eq_true', Option.map_eq_some_iff, Prod.mk.injEq]
  constructor
  · rintro ⟨i, ⟨hi, ⟨hgroups, hrun⟩, hflag⟩, a, ha, rfl, rfl⟩
    exact ⟨i, hi, rfl, hrun, ha, hgroups, hflag⟩
  · rintro ⟨i, hi, rfl, hrun, ha, hgroups, hflag⟩
    exact ⟨i, ⟨hi, ⟨hgroups, hrun⟩, hflag⟩, address, ha, rfl, rfl⟩

section Keeping

variable {w : World σ} {I : Run Fleet σ → Prop}

/-- Asking candidates keeps what requests keep that neither announce an instance nor commit to anything. -/
theorem keeps_probes (hr : ∀ s r, r.discovery? = none → r.commits = false → I s → I (s.ask w r)) (c : FleetConfig)
    (candidates : List (InstanceId × String)) :
    Keeps w I (Program.collect (fun candidate => probe c candidate.2) candidates : Program Fleet ε (List Bool)) := by
  refine Keeps.collect _ fun candidate _ => (Keeps.request fun s => hr s _ rfl rfl).bind fun connection => ?_
  split
  · exact (Keeps.request fun s => hr s _ rfl rfl).bind fun _ => Keeps.pure _
  · exact Keeps.pure _

/-- Probing keeps what confirmations keep besides. -/
theorem keeps_probeRunning (hr : ∀ s r, r.discovery? = none → r.commits = false → I s → I (s.ask w r))
    (hc : ∀ s id, I s → I (s.change (Change.confirmed id))) (c : FleetConfig) (groups : List Group) :
    Keeps w I (probeRunning c groups : Program Fleet ε Unit) := by
  refine Keeps.memory.bind fun fleet => (keeps_probes hr c _).bind fun oks => Keeps.each _ fun result _ => ?_
  split
  · exact Keeps.remember fun s => hc s _
  · exact Keeps.pure _

/-- What every change keeps, and every request that commits to nothing, is stable. -/
theorem Stable.of_steps (hr : ∀ s r, r.commits = false → I s → I (s.ask w r)) (hc : ∀ s c, I s → I (s.change c)) :
    Stable w I where
  asked s r _ hcommit := hr s r hcommit
  observed region o s hs := by
    rw [run_observe]
    refine hc _ _ ?_
    by_cases hk : s.own.knows o.record.id = true
    · rw [listed_of_knows w region hk]
      exact hs
    · rw [listed_of_not_knows w region hk]
      exact hc _ _ (hr _ _ rfl hs)
  moved s id kind := hc s _
  probed := keeps_probeRunning (fun s r _ => hr s r) fun s id => hc s _
  imaged s region image := hc s _

/-- Taking over an observation keeps what requests keep, and changes that confirm nobody and add only who is not
known. -/
theorem keeps_observe (hask : ∀ t r, I t → I (t.ask w r))
    (hchange : ∀ t c, (∀ other, c ≠ .confirmed other) →
      (∀ other region state, c = .added other region state → ¬t.own.knows other = true) → I t → I (t.change c))
    (region : Region) (o : Observation) : Keeps w I (observe region o : FleetProgram Unit) := by
  intro t ht
  rw [run_observe]
  refine hchange _ _ (fun _ => nofun) (fun _ _ _ => nofun) ?_
  by_cases hknown : t.own.knows o.record.id = true
  · rw [listed_of_knows w region hknown]
    exact ht
  · rw [listed_of_not_knows w region hknown]
    refine hchange _ _ (fun _ => nofun) (fun other region' state hadded => ?_) (hask _ _ ht)
    cases hadded
    exact hknown

end Keeping

/-! ## Runs that list no instance twice -/

/-- No operation lists an identifier twice. -/
theorem stable_ids_nodup (w : World σ) : Stable w fun t => (t.own.instances.map Instance.id).Nodup where
  asked _ _ _ _ h := h
  observed := keeps_observe (fun _ _ h => h) fun _ _ _ hadd h => ids_nodup_apply h hadd
  moved _ _ _ h := ids_nodup_apply h fun _ _ _ => nofun
  probed := keeps_probeRunning (fun _ _ _ _ h => h) fun _ _ h => ids_nodup_apply h fun _ _ _ => nofun
  imaged _ _ _ h := ids_nodup_apply h fun _ _ _ => nofun

end Fleet

/-- A run whose registry lists no instance twice. -/
structure FleetRun (σ : Type) extends Run Fleet σ where
  /-- The identifiers of the instances are distinct. -/
  distinct : (own.instances.map Instance.id).Nodup

namespace FleetRun

/-- A run in which nothing happened yet. -/
def fresh (world : σ) : FleetRun σ where
  toRun := Fleet.fresh world
  distinct := List.nodup_nil

/-- The run after operations one after the other, each with the patience of its caller. -/
def runAll (w : World σ) (c : FleetConfig) (s : FleetRun σ) (os : List (Nat × Fleet.Operation)) : FleetRun σ where
  toRun := Fleet.runAll w c s.toRun os
  distinct := (Fleet.stable_ids_nodup w).runAll (fun _ _ _ h => h) c os s.distinct

end FleetRun

end CloudFleet
