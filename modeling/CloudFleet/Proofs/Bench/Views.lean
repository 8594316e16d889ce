import CloudFleet.Fleet.Target
import CloudFleet.Proofs.Bench.Leftovers
import CloudFleet.Proofs.Bench.Phases
import CloudFleet.Proofs.Fleet.NodeList
import CloudFleet.Proofs.Remote.FanOut
import CloudFleet.Proofs.World.Raising

/-!
# Views of the running instances

The registry is read in three ways for what runs: a session is bound to it, the list of nodes names it, and an address
is looked up in it. All three go by `Instance.RunsAt`: the hosts of a session that is connected are the addresses of
the list (`Bench.own_connect`), and a look-up gives the first instance at an address (`Fleet.idOfAddress_eq_ok_iff`),
which is also the one behind each outcome of a bound session if no address is there twice (`Bench.names_outcomeOf`). A
run that brings its payload up to date has the list on file when it launches (`Bench.onFile_of_approaching`), and
launches on the hosts of the list (`Bench.launched_behind_approach`).
-/

set_option autoImplicit false

namespace CloudFleet

variable {σ : Type}

/-! ## Instances by their addresses -/

/-- The instance runs, at this address. -/
def Instance.RunsAt (i : Instance) (address : String) : Prop := i.state = .running ∧ i.address = some address

theorem Instance.runsAt_iff {i : Instance} {address : String} :
    (i.state == .running && i.address == some address) = true ↔ i.RunsAt address := by
  rw [Bool.and_eq_true, beq_iff_eq, beq_iff_eq, RunsAt]

namespace Fleet

variable {f : Fleet} {address : String} {id : InstanceId}

theorem mem_addresses : address ∈ f.addresses ↔ ∃ i ∈ f.instances, i.RunsAt address := by
  simp only [addresses, List.mem_filterMap, Option.ite_none_right_eq_some, Instance.RunsAt]

/-- The look-up of an address gives the first instance that runs there. -/
theorem idOfAddress_eq_ok_iff : f.idOfAddress address = .ok id ↔ ∃ before i after, f.instances = before ++ i :: after
    ∧ i.RunsAt address ∧ i.id = id ∧ ∀ j ∈ before, ¬j.RunsAt address := by
  have hfound : f.idOfAddress address = .ok id ↔
      ∃ i, f.instances.find? (fun i => i.state == .running && i.address == some address) = some i ∧ i.id = id := by
    unfold idOfAddress
    split <;> rename_i hfind <;> simp [hfind]
  rw [hfound]
  simp only [List.find?_eq_some_iff_append, Instance.runsAt_iff, Bool.not_eq_true', ← Bool.not_eq_true]
  constructor
  · rintro ⟨i, ⟨hi, before, after, hsplit, hbefore⟩, hid⟩
    exact ⟨before, i, after, hsplit, hi, hid, hbefore⟩
  · rintro ⟨before, i, after, hsplit, hi, hid, hbefore⟩
    exact ⟨i, ⟨hi, before, after, hsplit, hbefore⟩, hid⟩

/-- The look-up succeeds exactly for the addresses of running instances. -/
theorem exists_idOfAddress_iff : (∃ id, f.idOfAddress address = .ok id) ↔ address ∈ f.addresses := by
  rw [mem_addresses]
  constructor
  · rintro ⟨id, hid⟩
    obtain ⟨before, i, after, hsplit, hi, -⟩ := idOfAddress_eq_ok_iff.mp hid
    exact ⟨i, by simp [hsplit], hi⟩
  · rintro ⟨i, hm, hi⟩
    have hsome : (f.instances.find? fun i => i.state == .running && i.address == some address).isSome = true :=
      List.find?_isSome.mpr ⟨i, hm, Instance.runsAt_iff.mpr hi⟩
    obtain ⟨first, hfirst⟩ := Option.isSome_iff_exists.mp hsome
    exact ⟨first.id, by rw [idOfAddress, hfirst]⟩

end Fleet

namespace Bench

variable {f : Fleet}

theorem map_fst_hostsOf (f : Fleet) : (hostsOf f).map Prod.fst = f.addresses := by
  rw [hostsOf, List.map_filterMap, ← Fleet.filterMap_running]
  refine congrArg (List.filterMap · f.running) (funext fun i => ?_)
  cases i.address <;> rfl

theorem mem_hostsOf {address : String} {id : InstanceId} :
    (address, id) ∈ hostsOf f ↔ ∃ i ∈ f.instances, i.RunsAt address ∧ i.id = id := by
  simp only [hostsOf, Fleet.running, Fleet.inState, Fleet.filter, List.mem_filterMap, List.mem_filter, beq_iff_eq,
    Option.map_eq_some_iff, Prod.mk.injEq, Instance.RunsAt]
  constructor
  · rintro ⟨i, ⟨hi, hstate⟩, _, haddress, rfl, hid⟩
    exact ⟨i, hi, ⟨hstate, haddress⟩, hid⟩
  · rintro ⟨i, hi, ⟨hstate, haddress⟩, hid⟩
    exact ⟨i, ⟨hi, hstate⟩, address, haddress, rfl, hid⟩

/-- Where no two running instances have one address, the instance that is bound with an address is the one that the
look-up gives. -/
theorem idOfAddress_of_mem_hostsOf (hnodup : f.addresses.Nodup) {address : String} {id : InstanceId}
    (hm : (address, id) ∈ hostsOf f) : f.idOfAddress address = .ok id := by
  have hlisted : address ∈ f.addresses := map_fst_hostsOf f ▸ List.mem_map_of_mem hm
  obtain ⟨id', hid'⟩ := Fleet.exists_idOfAddress_iff.mpr hlisted
  obtain ⟨before, i, after, hsplit, hi, rfl, -⟩ := Fleet.idOfAddress_eq_ok_iff.mp hid'
  have hm' : (address, i.id) ∈ hostsOf f := mem_hostsOf.mpr ⟨i, by simp [hsplit], hi, rfl⟩
  rw [← map_fst_hostsOf] at hnodup
  have hbound : (hostsOf f).lookup address = some id := Session.lookup_of_nodup hnodup hm
  have hfirst : (hostsOf f).lookup address = some i.id := Session.lookup_of_nodup hnodup hm'
  rw [hid', Option.some.inj (hfirst.symm.trans hbound)]

end Bench

/-! ## What a bound session reports -/

/-- The outcome names the instance that the fleet finds at its host. -/
def Outcome.Names (o : Outcome) (f : Fleet) : Prop := ∃ id, o.id = some id ∧ f.idOfAddress o.host = .ok id

/-- The outcomes that come with an error. -/
def RemoteError.outcomes : RemoteError → List Outcome
  | commandFailed _ outcomes => outcomes
  | _ => []

namespace Session

open Program (Ensures)

variable {w : World σ} {s : Run Session σ} {P : Outcome → Prop}

/-- Judging tells the outcomes that are judged and no others. -/
theorem judge_tells (options : RunOptions) (command : String) {outcomes : List Outcome} (h : ∀ o ∈ outcomes, P o) :
    Ensures w (judge options command outcomes) s (fun result _ => ∀ o ∈ result.outcomes, P o)
      fun e _ => ∀ o ∈ e.outcomes, P o := by
  unfold judge
  split
  · exact .raise nofun
  · dsimp only
    split
    · have hwarn : Program.Raises (fun e : RemoteError => ∀ o ∈ e.outcomes, P o)
          (Program.each (fun o => .warn (Outcome.text o)) outcomes : SessionProgram Unit) :=
        .each outcomes fun _ => .request _
      exact (hwarn.ensures s).bind fun _ _ _ => .raise h
    · exact .pure h

/-- Waiting fails with no outcomes. -/
theorem awaitAll_tells {α : Type} (limit : Option Duration) (ends : List (Completion α)) :
    Ensures w (awaitAll limit ends) s (fun _ _ => True) fun e _ => ∀ o ∈ e.outcomes, P o := by
  unfold awaitAll
  split
  · exact .ask (.pure trivial)
  · split
    · exact .ask (.pure trivial)
    · exact .ask (.raise nofun)
  · exact .ask (.raise nofun)
  · exact .stall

/-- The commands are those of the hosts, or they are refused, with no outcomes. -/
theorem commands_or_refused (hosts : List String) (command : String) (options : RunOptions) :
    (∃ commands, Session.commands hosts command options = .ok commands ∧ commands.map Prod.fst = hosts)
      ∨ ∃ e, Session.commands hosts command options = .error e ∧ e.outcomes = [] := by
  by_cases hhosts : hosts = []
  · exact Or.inr ⟨.notConnected, by rw [hhosts]; rfl, rfl⟩
  · by_cases hargs : ∀ args ∈ options.hostArgs, args.length = hosts.length
    · exact Or.inl (commands_of_bound command hhosts hargs)
    · obtain ⟨args, hgiven, hlength⟩ : ∃ args ∈ options.hostArgs, args.length ≠ hosts.length := by
        simpa only [not_forall, exists_prop] using hargs
      exact Or.inr ⟨_, commands_of_mismatch command hhosts hgiven hlength, rfl⟩

/-- However it ends, a command tells the outcomes of bound hosts. -/
theorem run_tells (command : String) (options : RunOptions)
    (h : ∀ host ∈ s.own.hosts, ∀ answer, P (outcomeOf s.own host answer)) :
    Ensures w (Session.run command options) s (fun result _ => ∀ o ∈ result.outcomes, P o)
      fun e _ => ∀ o ∈ e.outcomes, P o := by
  refine .consult ?_
  rcases commands_or_refused s.own.hosts command options with ⟨commands, hcommands, hfst⟩ | ⟨e, herror, hnone⟩
  · rw [hcommands]
    have hcalls := Ensures.collect (w := w) (s := s) (ε := RemoteError) (I := fun _ _ => True)
      (F := fun e _ => ∀ o ∈ e.outcomes, P o) (f := fun entry : String × String =>
        Program.request (.shell (.exec entry.1 entry.2 options.pty))) commands trivial fun _ _ _ _ _ => .request trivial
    refine hcalls.bind fun ends t _ => (awaitAll_tells _ _).bind fun answers u _ => judge_tells options command ?_
    intro o ho
    obtain ⟨entry, hentry, rfl⟩ := List.mem_map.mp ho
    exact h _ (hfst ▸ List.mem_map_of_mem (List.of_mem_zip hentry).1) _
  · rw [herror]
    refine .raise ?_
    rw [hnone]
    nofun

/-- However it ends, a script tells the outcomes of bound hosts. -/
theorem runScript_tells (script : Script) (options : RunOptions)
    (h : ∀ host ∈ s.own.hosts, ∀ answer, P (outcomeOf s.own host answer)) :
    Ensures w (Session.runScript script options) s (fun result _ => ∀ o ∈ result.outcomes, P o)
      fun e _ => ∀ o ∈ e.outcomes, P o := by
  have hrun (command : String) (t : Run Session σ) (ht : t.own = s.own) :
      Ensures w (Session.run command options) t (fun result u => (∀ o ∈ result.outcomes, P o) ∧ u.own = s.own)
        fun e _ => ∀ o ∈ e.outcomes, P o :=
    (run_tells command options (ht ▸ h)).keeping (keeps_run (fun _ _ _ hu => hu) command options) ht
  cases script with
  | single command => exact (hrun command s rfl).mono (fun _ _ hresult => hresult.1) fun _ _ herror => herror
  | sequence commands =>
    have hall (last : RunResult) (t : Run Session σ) (hlast : ∀ o ∈ last.outcomes, P o) (ht : t.own = s.own) :
        Ensures w (Session.runAll options last commands) t (fun result _ => ∀ o ∈ result.outcomes, P o)
          fun e _ => ∀ o ∈ e.outcomes, P o := by
      induction commands generalizing last t with
      | nil => exact .pure hlast
      | cons command commands ih => exact (hrun command t ht).bind fun result u hresult => ih result u hresult.1 hresult.2
    exact hall _ s nofun rfl

end Session

namespace Bench

open Program (Ensures Keeps)

variable {w : World σ} {f : Fleet} {s : Run Session σ}

/-! ## Connecting -/

theorem hostsOf_eq_nil_iff : hostsOf f = [] ↔ f.addresses = [] := by
  rw [← map_fst_hostsOf, List.map_eq_nil_iff]

/-- Where nothing runs at an address, a session stays as it is. -/
theorem connect_nowhere (hnone : f.addresses = []) :
    ∃ t, (connect f).run w s = (.returned none, t) ∧ t.own = s.own := by
  unfold connect
  rw [hostsOf_eq_nil_iff.mpr hnone]
  exact ⟨_, rfl, rfl⟩

/-- However it ends, connecting leaves the session bound to all that runs at an address. -/
theorem own_connect (hsome : f.addresses ≠ []) :
    ((connect f).run w s).2.own = s.own.apply (.bound (hostsOf f)) := by
  have hhosts : ¬(hostsOf f).isEmpty = true := by
    rwa [List.isEmpty_iff, hostsOf_eq_nil_iff]
  unfold connect
  dsimp only
  rw [if_neg hhosts]
  have hrest : Keeps w (fun t => t.own = s.own.apply (.bound (hostsOf f))) (do
      let result ← Session.run livenessCommand {}
      Program.each (fun o => .info s!"connected to {o.who}: {o.stdout}") result.outcomes
      pure (some result)) :=
    (Session.keeps_run (fun _ _ _ ht => ht) livenessCommand {}).bind fun result =>
      (Keeps.each result.outcomes fun _ _ => Keeps.request fun _ ht => ht).bind fun _ => Keeps.pure (some result)
  exact hrest _ rfl

/-- However it ends, connecting tells the outcomes of the bound hosts. -/
theorem connect_tells {P : Outcome → Prop}
    (h : ∀ host ∈ f.addresses, ∀ answer, P (Session.outcomeOf (s.own.apply (.bound (hostsOf f))) host answer)) :
    Ensures w (connect f) s (fun result _ => ∀ r ∈ result, ∀ o ∈ r.outcomes, P o) fun e _ => ∀ o ∈ e.outcomes, P o := by
  unfold connect
  dsimp only
  split
  · exact .ask (.pure nofun)
  · refine .ask (.change ((Session.run_tells livenessCommand {} ?_).bind fun result t hresult => ?_))
    · show ∀ host ∈ (hostsOf f).map Prod.fst, _
      rw [map_fst_hostsOf]
      exact h
    · have htell : Program.Raises (fun e : RemoteError => ∀ o ∈ e.outcomes, P o)
          (Program.each (fun o => .info s!"connected to {o.who}: {o.stdout}") result.outcomes : SessionProgram Unit) :=
        .each result.outcomes fun _ => .request _
      exact (htell.ensures t).bind fun _ _ _ => .pure fun r hr => Option.some.inj hr ▸ hresult

/-! ## The instances behind the outcomes -/

/-- A session that was bound to all that runs at an address, and is aimed at some of these hosts. -/
def BoundTo (f : Fleet) (own : Session) : Prop := own.ids = (hostsOf f).reverse ∧ own.hosts ⊆ f.addresses

/-- Where no two running instances have one address, the outcomes of bound hosts name the instances there. -/
theorem names_outcomeOf {own : Session} (hnodup : f.addresses.Nodup) (hbound : BoundTo f own) {host : String}
    (hm : host ∈ own.hosts) (answer : Except TransportError Output) : (Session.outcomeOf own host answer).Names f := by
  have hlisted : host ∈ (hostsOf f).map Prod.fst := map_fst_hostsOf f ▸ hbound.2 hm
  obtain ⟨⟨address, id⟩, hentry, rfl⟩ := List.mem_map.mp hlisted
  have hid : own.id? address = some id := by
    rw [Session.id?, hbound.1]
    refine Session.lookup_of_nodup ?_ (List.mem_reverse.mpr hentry)
    rwa [((hostsOf f).reverse_perm.map Prod.fst).nodup_iff, map_fst_hostsOf]
  have hfound := idOfAddress_of_mem_hostsOf hnodup hentry
  cases answer <;> exact ⟨id, hid, hfound⟩

/-! ## The node list of a run -/

/-- A text was put into a file, or found there, and nothing else was written to local files. -/
def OnFile (path : Path) (text : String) (h : List Exchange) : Prop :=
  ∃ before e after, h = before ++ e :: after
    ∧ (e = ⟨.file (.write path text), .ok ()⟩ ∨ e = ⟨.file (.readText path), .ok text⟩)
    ∧ ∀ x ∈ before ++ after, x.1.writes = false ∧ x.1.appends = false

/-- What writes to no local file. -/
def Unwriting (e : Exchange) : Prop := e.1.writes = false ∧ e.1.appends = false

theorem plain_unwriting : Plain Unwriting := by
  constructor <;> intros <;> exact ⟨rfl, rfl⟩

/-- Where a list of nodes is through, it is on file. -/
theorem onFile_of_listed {path : Path} {text : String} (htext : text ≠ "") {h : List Exchange}
    (hl : listed path text h (some ())) : OnFile path text h := by
  obtain ⟨answer, _, after, rfl, ⟨_, rfl, hanswer⟩, hafter⟩ := Course.bind_some_iff.mp hl
  cases hanswer
  have hwritten (hw : file (.write path text) after (some ())) :
      OnFile path text ([⟨.file (.readText path), answer⟩] ++ after) := by
    rw [file_some_iff] at hw
    subst hw
    refine ⟨[⟨.file (.readText path), answer⟩], _, [], rfl, Or.inl rfl, fun x hx => ?_⟩
    rw [List.mem_singleton.mp hx]
    exact ⟨rfl, rfl⟩
  cases answer with
  | ok current =>
    dsimp only at hafter
    split at hafter
    · rename_i hsame
      obtain ⟨rfl, -⟩ := hafter
      exact ⟨[], _, [], rfl, Or.inr (by rw [hsame]), nofun⟩
    · exact hwritten hafter
  | error e =>
    dsimp only at hafter
    split at hafter
    · rw [if_neg htext.symm] at hafter
      exact hwritten hafter
    · cases hafter.2

/-- What goes around it writes to no local file. -/
theorem OnFile.within {path : Path} {text : String} {h before after : List Exchange} (h' : OnFile path text h)
    (hbefore : ∀ x ∈ before, Unwriting x) (hafter : ∀ x ∈ after, Unwriting x) :
    OnFile path text (before ++ h ++ after) := by
  obtain ⟨early, e, late, rfl, he, hquiet⟩ := h'
  refine ⟨before ++ early, e, late ++ after, by simp, he, fun x hx => ?_⟩
  simp only [List.mem_append] at hx hquiet
  rcases hx with (hx | hx) | hx | hx
  · exact hbefore x hx
  · exact hquiet x (Or.inl hx)
  · exact hquiet x (Or.inr hx)
  · exact hafter x hx

/-- A run that brings its payload up to date has the list of nodes on file when it reaches its launch. -/
theorem onFile_of_approaching {fc : FleetConfig} {c : BenchConfig} {p : BenchParams} {tracked : List Process}
    {plan : Option (Schedule × List UInt64)} {l : Launch} {h : List Exchange} (hsync : p.sync = true)
    (ha : approaching fc c f p tracked plan h (some l)) :
    OnFile fc.nodeListPath (Fleet.nodeListText f.nodeAddresses fc.nodeListPort) h := by
  have hplain := plain_unwriting
  have htext : Fleet.nodeListText f.nodeAddresses fc.nodeListPort ≠ "" := by
    refine Fleet.nodeListText_ne_empty (fun hnone => (launch_of_approaching fc c f p ha).1 ?_) _
    show (hostsOf f).map Prod.fst = []
    rw [map_fst_hostsOf, ← List.perm_nil, ← hnone]
    exact f.nodeAddresses_perm.symm
  obtain ⟨_, ready, preparing, rfl, hready, hprepare⟩ := Course.bind_some_iff.mp ha
  obtain ⟨_, connecting, rest, rfl, hconnected, hrest⟩ := Course.bind_some_iff.mp hready
  obtain ⟨_, cleaning, delivering, rfl, hcleaned, hdelivered⟩ := Course.bind_some_iff.mp hrest
  rw [if_pos hsync] at hdelivered
  obtain ⟨_, listing, syncing, rfl, hlisted, hsynced⟩ := Course.bind_some_iff.mp hdelivered
  have hsyncing : Course.Only Unwriting (do
      packed c
      let updated ← syncedAll (boundTo f) c c.archives
      unpackedOn (boundTo f) c ((boundTo f).hosts.filter fun host => updated.contains host)) :=
    .bind (only_packed hplain.run) fun _ => .bind (only_syncedAll hplain _) fun _ => only_unpackedOn hplain _
  have hpreparing : ∀ x ∈ preparing, Unwriting x :=
    Course.Only.bind (.demand _) (fun _ => .bind (.known _) fun _ =>
      .bind (only_heard hplain _) fun _ => .pure _) _ _ hprepare
  have hdelivery := (onFile_of_listed htext hlisted).within (only_cleaned hplain tracked _ _ hcleaned)
    (hsyncing _ _ hsynced)
  rw [List.append_assoc] at hdelivery
  exact hdelivery.within (only_connected hplain f _ _ hconnected) hpreparing

/-- What is launched in a run is launched, on all bound hosts, behind its approach. -/
theorem launched_behind_approach (w : World σ) (fc : FleetConfig) (c : BenchConfig) (patience : Nat) (f : Fleet)
    (p : BenchParams) (s : Run Session σ) :
    ∃ past new, ((runBenchmark fc c patience f p).run w s).2.history = s.history ++ past ++ new
      ∧ Session.spawns past = []
      ∧ (Session.spawns new ≠ [] → (∃ plan l, approaching fc c f p s.own.processes plan (effects past) (some l))
        ∧ (Session.spawns new).map Prod.fst = f.addresses) := by
  have hquiet : Session.spawns ((approach fc c patience f p).run w s).2.history = Session.spawns s.history :=
    spawns_approach w fc c patience f p _ s rfl
  obtain ⟨past, hpast, hcourse, hbound⟩ := follows_approaching (w := w) fc c patience f p s
  rw [hpast, Session.spawns_append] at hquiet
  have hnone : Session.spawns past = [] := List.append_cancel_left (hquiet.trans (List.append_nil _).symm)
  rw [runBenchmark_eq, Program.run_andThen]
  cases hr : (approach fc c patience f p).run w s with
  | mk ending t =>
    rw [hr] at hpast hcourse hbound
    cases ending with
    | returned l =>
      obtain ⟨-, hhosts, hnodes, hplan⟩ := launch_of_approaching fc c f p hcourse
      have hrounds : l.rounds.length = p.numNodes.toNat := length_of_planned w hplan
      have hown : t.own.hosts = (boundTo f).hosts := (hbound l rfl).1
      obtain ⟨new, hh, -⟩ := Program.run_history w (launching c p l >>= fun _ => finishing c p l) t
      have hlaunch := spawns_launching w c p l (hhosts.trans hown.symm) (hrounds.trans hnodes.symm)
      have hspawns := Program.after_andThen (G := fun u => Session.spawns u.history
        = Session.spawns t.history ++ l.substituted c p) (f := fun _ => finishing c p l) hlaunch fun _ u hu =>
          spawns_finishing w c p l _ u (by rw [hu] at hlaunch; exact hlaunch)
      rw [hh, Session.spawns_append] at hspawns
      refine ⟨past, new, by rw [hh, hpast], hnone, fun _ => ⟨⟨_, l, hcourse⟩, ?_⟩⟩
      calc (Session.spawns new).map Prod.fst = ((l.record p).roundsPerHost).map Prod.fst := by
            rw [List.append_cancel_left hspawns, Launch.substituted, List.map_map]
            rfl
        _ = l.hosts := List.map_fst_zip (Nat.le_of_eq (hnodes.trans hrounds.symm))
        _ = f.addresses := hhosts.trans (map_fst_hostsOf f)
    | _ => exact ⟨past, [], by rw [List.append_nil]; exact hpast, hnone, fun h => absurd rfl h⟩

/-! ## The views agree -/

/-- **Three views of the running instances agree.** Connecting binds the session to some hosts where there are any, and
however it ends these are the addresses that the node list has a line for, each as often; where there are none it leaves
the session as it is. The look-up of an address succeeds exactly if it is among them, and gives the first instance that
runs there. Where the addresses are distinct, every outcome that is told of bound hosts, when connecting and by any
script after it, has the instance that the look-up gives for its host. What a run launches that brings its payload up to
date, it launches on these hosts, and the text that lists them is on file by then. -/
theorem views_of_running_instances_agree (f : Fleet) :
    (∀ (w : World σ) (s : Run Session σ),
      (f.nodeAddresses = [] → ∃ t, (connect f).run w s = (.returned none, t) ∧ t.own = s.own)
        ∧ (f.nodeAddresses ≠ [] → ∃ ending t, (connect f).run w s = (ending, t) ∧ BoundTo f t.own
          ∧ t.own.hosts.Perm f.nodeAddresses
          ∧ ∀ port, Fleet.Lists t.own.hosts port (Fleet.nodeListText f.nodeAddresses port)))
      ∧ (∀ address, (∃ id, f.idOfAddress address = .ok id) ↔ address ∈ f.nodeAddresses)
      ∧ (∀ address id, f.idOfAddress address = .ok id ↔ ∃ before i after, f.instances = before ++ i :: after
        ∧ i.RunsAt address ∧ i.id = id ∧ ∀ j ∈ before, ¬j.RunsAt address)
      ∧ (f.nodeAddresses.Nodup → ∀ (w : World σ) (s : Run Session σ),
        Ensures w (connect f) s (fun result _ => ∀ r ∈ result, ∀ o ∈ r.outcomes, o.Names f)
            (fun e _ => ∀ o ∈ e.outcomes, o.Names f)
          ∧ (BoundTo f s.own → ∀ script options, Ensures w (Session.runScript script options) s
            (fun result _ => ∀ o ∈ result.outcomes, o.Names f) fun e _ => ∀ o ∈ e.outcomes, o.Names f))
      ∧ ∀ (w : World σ) (fc : FleetConfig) (c : BenchConfig) (patience : Nat) (p : BenchParams) (s : Run Session σ),
        ∃ past new, ((runBenchmark fc c patience f p).run w s).2.history = s.history ++ past ++ new
          ∧ Session.spawns past = []
          ∧ (p.sync = true → Session.spawns new ≠ [] →
            OnFile fc.nodeListPath (Fleet.nodeListText f.nodeAddresses fc.nodeListPort) (effects past)
              ∧ ((Session.spawns new).map Prod.fst).Perm f.nodeAddresses
              ∧ Fleet.Lists ((Session.spawns new).map Prod.fst) fc.nodeListPort
                (Fleet.nodeListText f.nodeAddresses fc.nodeListPort)) := by
  have hperm := f.nodeAddresses_perm
  have hmem (address : String) : address ∈ f.nodeAddresses ↔ address ∈ f.addresses := hperm.mem_iff
  have hnone : f.nodeAddresses = [] ↔ f.addresses = [] := by
    rw [← List.length_eq_zero_iff, ← List.length_eq_zero_iff, hperm.length_eq]
  refine ⟨fun w s => ⟨fun h => ?nowhere, fun h => ?bound⟩, fun address => ?found, fun address id => ?first,
    fun hnodup w s => ⟨?connecting, fun hbound script options => ?later⟩, fun w fc c patience p s => ?launch⟩
  case nowhere => exact connect_nowhere (hnone.mp h)
  case bound =>
    have hown := own_connect (w := w) (s := s) (mt hnone.mpr h)
    have hhosts : ((connect f).run w s).2.own.hosts = f.addresses := by
      rw [hown]
      exact map_fst_hostsOf f
    refine ⟨_, _, rfl, ⟨by rw [hown]; rfl, ?_⟩, ?_, fun port => ?_⟩
    · rw [hhosts]
      exact List.Subset.refl _
    · rw [hhosts]
      exact hperm.symm
    · rw [hhosts]
      exact f.lists_nodeListText port
  case found => rw [hmem, Fleet.exists_idOfAddress_iff]
  case first => exact Fleet.idOfAddress_eq_ok_iff
  case connecting =>
    have hbound : BoundTo f (s.own.apply (.bound (hostsOf f))) := ⟨rfl, fun _ hm => map_fst_hostsOf f ▸ hm⟩
    refine connect_tells fun host hm answer => names_outcomeOf (hperm.nodup_iff.mp hnodup) hbound ?_ answer
    show host ∈ (hostsOf f).map Prod.fst
    rwa [map_fst_hostsOf]
  case later =>
    exact Session.runScript_tells script options fun host hm answer =>
      names_outcomeOf (hperm.nodup_iff.mp hnodup) hbound hm answer
  case launch =>
    obtain ⟨past, new, hh, hquiet, hlaunch⟩ := launched_behind_approach w fc c patience f p s
    refine ⟨past, new, hh, hquiet, fun hsync hsome => ?_⟩
    obtain ⟨⟨plan, l, ha⟩, hhosts⟩ := hlaunch hsome
    rw [hhosts]
    exact ⟨onFile_of_approaching hsync ha, hperm.symm, f.lists_nodeListText fc.nodeListPort⟩

/-- The run that brings its payload up to date launches its workload where all are obliging. -/
theorem launches_syncedRounds : Session.spawns
    ((runBenchmark {} singleArchive 0 twoRunning syncedRounds).run obliging (fresh ())).2.history ≠ [] := by
  unfold runBenchmark begin updatePayload Fleet.writeNodeList
  rw [nodeAddresses_twoRunning]
  decide +kernel

/-- It has both hosts on file that it launches on. -/
theorem views_of_running_instances_agree_two :
    ∃ past new, ((runBenchmark {} singleArchive 0 twoRunning syncedRounds).run obliging (fresh ())).2.history
        = past ++ new
      ∧ OnFile "aws/nodes.txt" "a:8333\nb:8333\n" (effects past)
      ∧ ((Session.spawns new).map Prod.fst).Perm ["a", "b"]
      ∧ (∃ id, twoRunning.idOfAddress "b" = .ok id) ∧ ¬∃ id, twoRunning.idOfAddress "c" = .ok id := by
  obtain ⟨-, hfound, -, -, hruns⟩ := views_of_running_instances_agree (σ := Unit) twoRunning
  obtain ⟨past, new, hh, hquiet, hlaunch⟩ := hruns obliging {} singleArchive 0 syncedRounds (fresh ())
  have hsome : Session.spawns new ≠ [] := by
    have hall := launches_syncedRounds
    rwa [hh, Session.spawns_append, Session.spawns_append, hquiet] at hall
  obtain ⟨hfile, hhosts, -⟩ := hlaunch rfl hsome
  rw [nodeAddresses_twoRunning] at hfile hhosts
  simp only [nodeAddresses_twoRunning] at hfound
  exact ⟨past, new, hh, hfile, hhosts, (hfound "b").mpr (by decide), mt (hfound "c").mp (by decide)⟩

end Bench

end CloudFleet
