import CloudFleet.Proofs.Fleet.Grouping
import CloudFleet.Proofs.Fleet.Waiting
import CloudFleet.Proofs.Rehearsal.Accord

/-!
# One poll of an orderly control plane

A control plane is orderly if it is willing, lists no identifier twice, and keeps its machines as the provider would
(`Machine.Regular`). Where moreover every probe is answered, a refresh of groups in known regions succeeds, and all that
runs in them can be reached afterwards (`refresh_returns`).

A poll of some targets describes each of them once, because each is in the group of its region alone
(`described_once`). So the poll shows the state in which all of them are, and moves them on to the next one
(`poll_shows`).
-/

set_option autoImplicit false

namespace CloudFleet

variable {σ ε : Type}

open Rehearsal Rehearsal.ControlPlane

namespace Rehearsal

/-! ## Orderly planes -/

namespace ControlPlane

theorem addressOf_ne_empty (id : InstanceId) (region : Region) : addressOf id region ≠ "" := by
  intro h
  -- whatever comes before it, the end of the address stays
  have hend : (addressOf id region).toList = (id ++ "." ++ region.name).toList ++ ".compute.example.com".toList := by
    simp [addressOf, toString]
  rw [h] at hend
  simp at hend

/-- A machine as the provider keeps it. -/
structure Regular (regions : List Region) (m : Machine) : Prop where
  region : m.region ∈ regions
  state : ∃ state : InstanceState, m.state = state.name
  address : m.address ≠ some ""
  /-- One that runs has an address. -/
  running : m.state = InstanceState.running.name → m.address.isSome = true

/-- A machine is set up so, in a region that is known and a state that exists. -/
theorem regular_machine {regions : List Region} {region : Region} (hregion : region ∈ regions) (id : InstanceId)
    (state : InstanceState) (status : Option String) : Regular regions (machine id region state.name none status) := by
  refine ⟨hregion, ⟨state, rfl⟩, ?_, fun hruns => ?_⟩
  · simp only [machine, Option.getD_none]
    split
    · simpa using addressOf_ne_empty id region
    · simp
  · have hruns : state.name = "running" := hruns
    simp [machine, hruns]

theorem Regular.advance {regions : List Region} {m : Machine} (h : Regular regions m) :
    Regular regions (advance m) := by
  cases hnext : nextState? m.state with
  | none =>
    rw [advance_of_nextState?_eq_none hnext]
    exact h
  | some next =>
    have hmoved : ControlPlane.advance m = setState m next := by rw [ControlPlane.advance, hnext]
    have haddress : (setState m next).address
        = if next = "running" then some (m.address.getD (addressOf m.id m.region)) else m.address := by
      unfold setState
      split <;> rfl
    obtain ⟨state, hstate⟩ := h.state
    refine ⟨by rw [region_advance]; exact h.region, ⟨state.next, state_advance hstate⟩, ?_, fun hruns => ?_⟩
    · rw [hmoved, haddress]
      split
      · cases hold : m.address with
        | none => simpa using addressOf_ne_empty m.id m.region
        | some address => simpa [hold] using h.address
      · exact h.address
    · rw [hmoved, state_setState] at hruns
      have hnamed : next = "running" := hruns
      rw [hmoved, haddress, if_pos hnamed]
      rfl

/-- The plane is willing, lists no identifier twice, and keeps its machines as the provider would. -/
structure Orderly (p : ControlPlane) : Prop where
  willing : p.Willing
  distinct : p.Distinct
  regular : ∀ m ∈ p.machines, Regular p.regions m

variable {p q : ControlPlane}

theorem Orderly.carryOut (h : p.Orderly) {call : CloudCall} (hcalm : Calm (.cloud call)) :
    (p.carryOut call).2.Orderly := by
  refine ⟨h.willing.carryOut call, ?_, ?_⟩
  all_goals rcases machines_carryOut p hcalm.1 hcalm.2 with hsame | ⟨region, ids, hupdate⟩
  · rw [Distinct, hsame]
    exact h.distinct
  · rw [hupdate, Distinct, ids_update]
    exact h.distinct
  · rw [regions_carryOut, hsame]
    exact h.regular
  · rw [regions_carryOut, hupdate]
    intro m hm
    obtain ⟨n, hn, rfl⟩ := List.mem_map.mp hm
    split
    · exact (h.regular n hn).advance
    · exact h.regular n hn

theorem Orderly.plays (h : p.Orderly) {xs : List ((r : Request) × r.Reply)} (hxs : ∀ x ∈ xs, Calm x.1)
    (hplays : Plays p xs q) : q.Orderly ∧ q.regions = p.regions :=
  (plays_keeps (P := fun q => q.Orderly ∧ q.regions = p.regions)
    (fun _ call hcalm hq => ⟨hq.1.carryOut hcalm, (regions_carryOut _ call).trans hq.2⟩) hxs h.willing ⟨h, rfl⟩
    hplays).2

end ControlPlane

/-! ## Who is described once -/

section Described

variable {f : Fleet} {p q : ControlPlane} {attempts : List Fleet.Attempt}

/-- Descriptions of others leave a machine and its instance alone. -/
theorem undescribed_one (hp : p.Orderly) {a : Fleet.Attempt} (hplays : Plays p a.exchanges q)
    {m : Machine} (hm : m ∈ p.machines) (hnot : asked a.group.1 a.group.2 m = false) :
    m ∈ q.machines ∧ (f.learn [a]).get? m.id = f.get? m.id := by
  have hlearn : f.learn [a] = f.seeAll a.sightings := by rw [Fleet.learn, List.flatMap_singleton]
  rw [hlearn]
  rcases hplays.attempt hp.willing with ⟨-, rfl, statuses, ha⟩ | ⟨-, rfl, hnone⟩
  · refine ⟨List.mem_map.mpr ⟨m, hm, by rw [hnot, if_neg Bool.false_ne_true]⟩, ?_⟩
    refine Fleet.get?_seeAll_of_absent fun x hx he => ?_
    rw [ha] at hx
    obtain ⟨n, hn, hasked, -, hrecord, -⟩ := of_mem_sightings hp.distinct _ _ hx
    have hid : m.id = n.id := by rw [he, hrecord]; rfl
    rw [← hp.distinct.eq hm hn hid, hnot] at hasked
    cases hasked
  · rw [hnone]
    exact ⟨hm, rfl⟩

/-- A description takes the machine on, and shows it as it was. -/
theorem described_one (hp : p.Orderly) {a : Fleet.Attempt} (hplays : Plays p a.exchanges q)
    (hregion : a.group.1 ∈ p.regions) {m : Machine} (hm : m ∈ p.machines)
    (hasked : asked a.group.1 a.group.2 m = true) {state : InstanceState}
    (hstate : InstanceState.parse? m.state = some state) :
    advance m ∈ q.machines ∧ ∃ status, (f.learn [a]).get? m.id
      = some (((f.get? m.id).getD (.new m.id m.region state)).load (record m) state status) := by
  have hlearn : f.learn [a] = f.seeAll a.sightings := by rw [Fleet.learn, List.flatMap_singleton]
  rw [hlearn]
  rcases hplays.attempt hp.willing with ⟨-, rfl, statuses, ha⟩ | ⟨hunknown, -⟩
  · refine ⟨List.mem_map.mpr ⟨m, hm, by rw [hasked, if_pos rfl]⟩, ?_⟩
    obtain ⟨status, hx⟩ := mem_sightings hp.distinct statuses hm hasked hstate
    have hn := sightings_nodup hp.distinct a.group statuses
    rw [← ha] at hx hn
    have hget := Fleet.get?_seeAll_of_sighted (f := f) hn hx
    rw [← region_of_asked hasked] at hget
    exact ⟨status, hget⟩
  · exact absurd hregion hunknown

theorem undescribed (hp : p.Orderly) (hplays : Plays p (attempts.flatMap Fleet.Attempt.exchanges) q)
    {m : Machine} (hm : m ∈ p.machines) (hnot : ∀ a ∈ attempts, asked a.group.1 a.group.2 m = false) :
    m ∈ q.machines ∧ (f.learn attempts).get? m.id = f.get? m.id := by
  induction attempts generalizing f p with
  | nil => exact ⟨hplays ▸ hm, rfl⟩
  | cons a attempts ih =>
    rw [List.flatMap_cons] at hplays
    obtain ⟨r, hfirst, hrest⟩ := plays_append.mp hplays
    have hr := (hp.plays (calm_exchanges a) hfirst).1
    obtain ⟨hmr, hget⟩ := undescribed_one (f := f) hp hfirst hm (hnot a List.mem_cons_self)
    obtain ⟨hmq, hget'⟩ := ih (f := f.learn [a]) hr hrest hmr fun b hb =>
      hnot b (List.mem_cons_of_mem _ hb)
    have hlearn : f.learn (a :: attempts) = (f.learn [a]).learn attempts := Fleet.learn_append f [a] attempts
    exact ⟨hmq, by rw [hlearn, hget', hget]⟩

/-- Where each region is described once, the machines of a group are taken on once, and shown as they were. -/
theorem described_once (hp : p.Orderly)
    (hplays : Plays p (attempts.flatMap Fleet.Attempt.exchanges) q)
    (hregions : (attempts.map fun a => a.group.1).Nodup) {a : Fleet.Attempt} (ha : a ∈ attempts)
    (hknown : a.group.1 ∈ p.regions) {m : Machine} (hm : m ∈ p.machines)
    (hasked : asked a.group.1 a.group.2 m = true) {state : InstanceState}
    (hstate : InstanceState.parse? m.state = some state) :
    advance m ∈ q.machines ∧ ∃ status, (f.learn attempts).get? m.id
      = some (((f.get? m.id).getD (.new m.id m.region state)).load (record m) state status) := by
  induction attempts generalizing f p with
  | nil => cases ha
  | cons b attempts ih =>
    rw [List.flatMap_cons] at hplays
    obtain ⟨r, hfirst, hrest⟩ := plays_append.mp hplays
    obtain ⟨hr, hknows⟩ := hp.plays (calm_exchanges b) hfirst
    obtain ⟨hb, hregions⟩ := List.nodup_cons.mp hregions
    have hlearn : f.learn (b :: attempts) = (f.learn [b]).learn attempts := Fleet.learn_append f [b] attempts
    rw [hlearn]
    rcases List.mem_cons.mp ha with rfl | ha
    · -- the groups behind it are of other regions
      obtain ⟨hmr, status, hget⟩ := described_one (f := f) hp hfirst hknown hm hasked hstate
      have hlater : ∀ c ∈ attempts, asked c.group.1 c.group.2 (advance m) = false := by
        intro c hc
        refine asked_of_ne_region (fun hregion => hb ?_) _
        rw [region_advance, region_of_asked hasked] at hregion
        exact List.mem_map.mpr ⟨c, hc, hregion.symm⟩
      obtain ⟨hmq, hget'⟩ := undescribed (f := f.learn [a]) hr hrest hmr hlater
      rw [id_advance] at hget'
      exact ⟨hmq, status, hget'.trans hget⟩
    · have hne : m.region ≠ b.group.1 := fun he =>
        hb (List.mem_map.mpr ⟨a, ha, (region_of_asked hasked).symm.trans he⟩)
      obtain ⟨hmr, hget⟩ := undescribed_one (f := f) hp hfirst hm (asked_of_ne_region hne _)
      obtain ⟨hmq, status, hget'⟩ := ih (f := f.learn [b]) hr hrest hregions ha (hknows ▸ hknown) hmr
      rw [hget] at hget'
      exact ⟨hmq, status, hget'⟩

end Described

/-! ## Refreshes of an orderly plane -/

/-- Where an orderly plane knows the regions every group is described, with states that can all be read. -/
theorem described_all {p q : ControlPlane} {attempts : List Fleet.Attempt} (hp : p.Orderly)
    (hplays : Plays p (attempts.flatMap Fleet.Attempt.exchanges) q)
    (hknown : ∀ a ∈ attempts, a.group.1 ∈ p.regions) : ∀ a ∈ attempts, a.failure? = none ∧ a.unreadable? = none := by
  induction attempts generalizing p with
  | nil => simp
  | cons a attempts ih =>
    rw [List.flatMap_cons] at hplays
    obtain ⟨r, hfirst, hrest⟩ := plays_append.mp hplays
    obtain ⟨hr, hregions⟩ := hp.plays (calm_exchanges a) hfirst
    have hlater := ih hr hrest fun b hb => hregions ▸ hknown b (List.mem_cons_of_mem _ hb)
    refine List.forall_mem_cons.mpr ⟨?_, hlater⟩
    rcases hfirst.attempt hp.willing with ⟨-, -, statuses, ha⟩ | ⟨hunknown, -⟩
    · rw [ha]
      refine ⟨rfl, Option.map_eq_none_iff.mpr (List.find?_eq_none.mpr fun x hx => ?_)⟩
      have hrecord : x.1 ∈ (Cloud.withStatuses ((p.machines.filter (asked a.group.1 a.group.2)).map record)
          statuses).map Prod.fst := List.mem_map_of_mem hx
      rw [Fleet.map_fst_withStatuses] at hrecord
      obtain ⟨m, hm, hmx⟩ := List.mem_map.mp hrecord
      obtain ⟨state, hstate⟩ := (hp.regular m (List.mem_filter.mp hm).1).state
      have hname : x.1.state = state.name := by rw [← hmx]; exact hstate
      simp [InstanceRecord.readable, hname, InstanceState.parse?_name]
    · exact absurd (hknown a List.mem_cons_self) hunknown

/-- Where all probes are answered, all candidates answer. -/
theorem answering_eq {candidates : List (InstanceId × String)} {connections : List Connection}
    (hlength : connections.length = candidates.length)
    (hopened : ∀ x ∈ candidates.zip connections, x.2 = .opened) :
    Fleet.answering candidates connections = candidates := by
  have hall : ∀ x ∈ candidates.zip connections, x.2.isOpen = true := fun x hx => by
    rw [hopened x hx]
    rfl
  rw [Fleet.answering, List.filter_eq_self.mpr hall]
  exact List.map_fst_zip (Nat.le_of_eq hlength.symm)

section Refreshing

variable {w : World σ} {plane : σ → ControlPlane} {isOpen : σ → Prop} {c : FleetConfig} (hw : Rehearses w plane)
  (hopen : StaysOpen w isOpen)
include hw hopen

/-- A refresh of groups in known regions succeeds, and whoever could be reached then can. -/
theorem refresh_returns {s : Run Fleet σ} {target : Target} {groups : List Group}
    (hgroups : Fleet.groupsOf c s.own target = .ok groups) (hs : isOpen s.world) (hp : (plane s.world).Orderly)
    (hknown : ∀ group ∈ groups, group.1 ∈ (plane s.world).regions) :
    ∃ (attempts : List Fleet.Attempt) (t : Run Fleet σ), (Fleet.refresh c target).run w s = (.returned (), t)
      ∧ attempts.map Fleet.Attempt.group = groups
      ∧ Plays (plane s.world) (attempts.flatMap Fleet.Attempt.exchanges) (plane t.world)
      ∧ t.own = (s.own.learn attempts).confirmEach (((s.own.learn attempts).candidates groups).map Prod.fst)
      ∧ Fleet.polls t.history = Fleet.polls s.history ∧ Fleet.orders t.history = Fleet.orders s.history := by
  have hpolls := Fleet.polls_refresh w c target s
  rcases Fleet.refreshed_or_halted w c s hgroups with
    ⟨attempts, connections, t, hrun, h⟩ | ⟨before, last, name, t, hrun, h⟩
  · obtain ⟨q, hplays, hprobes⟩ := plays_append.mp (hw.plays_of_questions hrun h.questions_eq)
    have hq : q = plane t.world := eq_of_plays (fun x hx => Fleet.not_calls_of_mem_probesOf hx) hprobes
    have hdone := described_all hp hplays fun a ha => hknown _ (h.groups_eq ▸ List.mem_map_of_mem ha)
    have hnone : attempts.filterMap Fleet.Attempt.failure? = [] :=
      List.filterMap_eq_nil_iff.mpr fun a ha => (hdone a ha).1
    have hanswering := answering_eq h.length_eq fun x hx => by
      have hprobe : (⟨.probe x.1.2 c.probePort c.probeTimeout, x.2⟩ : (r : Request) × r.Reply)
          ∈ Fleet.probesOf c ((s.own.learn attempts).candidates groups) connections := by
        rw [Fleet.probesOf, ← List.map_uncurry_zip_eq_zipWith]
        exact List.mem_map.mpr ⟨x, hx, rfl⟩
      exact hopen.opened_of_questions hs hrun h.questions_eq (List.mem_append_right _ hprobe)
    rw [hrun] at hpolls
    refine ⟨attempts, t, by rw [hrun, if_pos hnone], h.groups_eq, hq ▸ hplays, ?_, hpolls, ?_⟩
    · rw [h.own_eq, hanswering]
    · have hcalm : (attempts.flatMap Fleet.Attempt.exchanges
          ++ Fleet.probesOf c ((s.own.learn attempts).candidates groups) connections).filter (fun x => x.1.moves)
          = [] := by
        refine List.filter_eq_nil_iff.mpr fun x hx => ?_
        rcases List.mem_append.mp hx with hx | hx
        · simp [(calm_attempts attempts x hx).1]
        · simp [(calm_probesOf x hx).1]
      rw [Fleet.orders, h.questions_eq, List.filter_append, hcalm, List.append_nil]
      rfl
  · -- a state that is none would have to be described
    have hplays := hw.plays_of_questions hrun h.asks.questions_eq
    have hdone := described_all hp hplays fun a ha => hknown _ (h.groups_prefix.subset (List.mem_map_of_mem ha))
    have hlast := (hdone last (List.mem_append_right _ List.mem_cons_self)).2
    rw [h.unreadable] at hlast
    cases hlast

end Refreshing

/-! ## Polls of some targets -/

/-- On the plane all targets are in a state. -/
def AllAre (p : ControlPlane) (targets : Subset) (state : InstanceState) : Prop :=
  ∀ i ∈ targets, ∃ m ∈ p.machines, m.id = i.id ∧ m.region = i.region ∧ m.state = state.name

/-- The registry lists the targets in their regions. -/
def Lists (f : Fleet) (targets : Subset) : Prop := ∀ i ∈ targets, ∃ j, f.get? i.id = some j ∧ j.region = i.region

/-- The registry shows the targets in a state, and those that run as reachable. -/
def Shown (f : Fleet) (targets : Subset) (state : InstanceState) : Prop :=
  ∀ i ∈ targets, ∃ j, f.get? i.id = some j ∧ j.region = i.region ∧ j.state = state
    ∧ j.reachable = decide (state = .running)

theorem Shown.lists {f : Fleet} {targets : Subset} {state : InstanceState} (h : Shown f targets state) :
    Lists f targets := fun i hi => by
  obtain ⟨j, hj, hregion, -⟩ := h i hi
  exact ⟨j, hj, hregion⟩

theorem Lists.knows {f : Fleet} {targets : Subset} (h : Lists f targets) : ∀ id ∈ targets.ids, f.knows id = true := by
  intro id hid
  obtain ⟨i, hi, rfl⟩ := List.mem_map.mp hid
  obtain ⟨j, hj, -⟩ := h i hi
  rw [Fleet.knows, hj]
  rfl

/-- The groups of listed targets are those of the targets as they were. -/
theorem groupsOf_lists {f : Fleet} {targets : Subset} (h : Lists f targets) (c : FleetConfig) :
    Fleet.groupsOf c f (.subset targets) = .ok (Subset.byRegion targets) := by
  obtain ⟨found, hfound⟩ := Fleet.lookupAll_of_knows h.knows
  have hentries : (found.map Fleet.entry).map some = (targets.map Fleet.entry).map some := by
    have hget := congrArg (List.map (Option.map Fleet.entry)) (Fleet.lookupAll_eq_ok_iff.mp hfound)
    rw [List.map_map, List.map_map] at hget
    rw [List.map_map, List.map_map]
    refine hget.symm.trans ?_
    rw [Subset.ids, List.map_map]
    refine List.map_congr_left fun i hi => ?_
    obtain ⟨j, hj, hregion⟩ := h i hi
    simp only [Function.comp_apply, hj, Option.map_some, Fleet.entry, (Fleet.mem_of_get? hj).2, hregion]
  have hgroups := Fleet.byRegion_congr (List.map_injective_iff.mpr (fun _ _ h => Option.some.inj h) hentries)
  simp only [Fleet.groupsOf, Fleet.resolve, hfound, Except.map, hgroups]

/-- Once all candidates were probed and answered, who can be reached are those that run. -/
theorem reachable_confirmIf {f : Fleet} {groups : List Group} {j : Instance} (hj : j ∈ f.instances)
    (hgroup : Fleet.inGroups groups j = true) (haddress : j.state = .running → j.address.isSome = true)
    (hflag : j.state ≠ .running → j.reachable = false) :
    (Fleet.confirmIf ((f.candidates groups).map Prod.fst) j).reachable = decide (j.state = .running) := by
  by_cases hruns : j.state = .running
  · have hconfirmable : j.confirmable = true := by simp [Instance.confirmable, hruns, haddress hruns]
    unfold Fleet.confirmIf
    split
    · simp only [hruns, decide_true]
      exact hconfirmable
    · rename_i hnot
      cases hr : j.reachable with
      | true => simp [hruns]
      | false =>
        obtain ⟨address, ha⟩ := Option.isSome_iff_exists.mp (haddress hruns)
        have hcandidate : (j.id, address) ∈ f.candidates groups :=
          Fleet.mem_candidates_iff.mpr ⟨j, hj, rfl, hruns, ha, hgroup, hr⟩
        exact absurd (List.mem_map.mpr ⟨_, hcandidate, rfl⟩) hnot
  · have hconfirm : j.confirm.reachable = false := by simp [Instance.confirm, Instance.confirmable, hruns]
    unfold Fleet.confirmIf
    split <;> simp [hruns, hflag hruns, hconfirm]

/-- Once all candidates were probed and answered, a machine that was seen can be reached if it was seen running. -/
theorem reachable_confirmIf_load {f : Fleet} {groups : List Group} {regions : List Region} {m : Machine}
    (hm : Regular regions m) {state : InstanceState} (hstate : m.state = state.name) {j : Instance}
    {status : Option StatusRecord} (hj : j.load (record m) state status ∈ f.instances)
    (hgroup : Fleet.inGroups groups j = true) :
    (Fleet.confirmIf ((f.candidates groups).map Prod.fst) (j.load (record m) state status)).reachable
      = decide (state = .running) := by
  refine reachable_confirmIf hj hgroup (fun hruns => ?_) fun hruns => ?_
  · have hruns : state = .running := hruns
    obtain ⟨address, ha⟩ := Option.isSome_iff_exists.mp (hm.running (hruns ▸ hstate))
    have hne : address ≠ "" := fun he => hm.address (he ▸ ha)
    simp [Instance.load, Instance.enter, record, ha, Option.filter, hne]
  · have hruns : state ≠ .running := hruns
    simp [Instance.load, Instance.enter, hruns]

/-- Where each group of the targets is described, each target is described by the group of its region. -/
theorem targets_described {f : Fleet} {p q : ControlPlane} {attempts : List Fleet.Attempt} {targets : Subset}
    {state : InstanceState} (hp : p.Orderly) (hplays : Plays p (attempts.flatMap Fleet.Attempt.exchanges) q)
    (hattempts : attempts.map Fleet.Attempt.group = Subset.byRegion targets) (hare : AllAre p targets state) :
    ∀ i ∈ targets, ∃ m ∈ p.machines, m.id = i.id ∧ m.region = i.region ∧ m.state = state.name
      ∧ Fleet.inGroups (Subset.byRegion targets) i = true ∧ advance m ∈ q.machines
      ∧ ∃ status, (f.learn attempts).get? m.id
        = some (((f.get? m.id).getD (.new m.id m.region state)).load (record m) state status) := by
  have hregions : (attempts.map fun a => a.group.1).Nodup := by
    have hnodup := (Subset.parted_byRegion targets).distinct
    rwa [← hattempts, List.map_map] at hnodup
  intro i hi
  obtain ⟨m, hm, hid, hregion, hstate⟩ := hare i hi
  obtain ⟨group, hgroup, hgregion, hgid⟩ := (Subset.parted_byRegion targets).exists_group hi
  obtain ⟨a, ha, rfl⟩ := List.mem_map.mp (hattempts ▸ hgroup)
  have hknown : a.group.1 ∈ p.regions := by
    rw [hgregion, ← hregion]
    exact (hp.regular m hm).region
  have hasked : asked a.group.1 a.group.2 m = true := by simp [asked, hregion, hgregion, hid, hgid]
  have hparse : InstanceState.parse? m.state = some state := by rw [hstate, InstanceState.parse?_name]
  have hin : Fleet.inGroups (Subset.byRegion targets) i = true :=
    List.any_eq_true.mpr ⟨_, hgroup, by simp [hgregion, hgid]⟩
  exact ⟨m, hm, hid, hregion, hstate, hin, described_once hp hplays hregions ha hknown hm hasked hparse⟩

section Polling

variable {w : World σ} {plane : σ → ControlPlane} {isOpen : σ → Prop} {c : FleetConfig} (hw : Rehearses w plane)
  (hopen : StaysOpen w isOpen)
include hw hopen

/-- A poll of targets that are all in one state shows them in that state, and takes them on to the next one. -/
theorem poll_shows {u : Run Fleet σ} {targets : Subset} {state : InstanceState} (hu : isOpen u.world)
    (hp : (plane u.world).Orderly) (hlists : Lists u.own targets) (hare : AllAre (plane u.world) targets state) :
    ∃ v, (Fleet.refresh c (.subset targets)).run w u = (.returned (), v) ∧ (plane v.world).Orderly
      ∧ AllAre (plane v.world) targets state.next ∧ Shown v.own targets state
      ∧ Fleet.polls v.history = Fleet.polls u.history ∧ Fleet.orders v.history = Fleet.orders u.history := by
  have hknown : ∀ group ∈ Subset.byRegion targets, group.1 ∈ (plane u.world).regions := by
    intro group hgroup
    obtain ⟨i, hi, hregion⟩ := ((Subset.parted_byRegion targets).regions group.1).mp (List.mem_map_of_mem hgroup)
    obtain ⟨m, hm, -, hm', -⟩ := hare i hi
    rw [← hregion, ← hm']
    exact (hp.regular m hm).region
  obtain ⟨attempts, v, hrun, hattempts, hplays, hown, hpolls, horders⟩ :=
    refresh_returns hw hopen (groupsOf_lists hlists c) hu hp hknown
  have hdescribed := targets_described (f := u.own) hp hplays hattempts hare
  refine ⟨v, hrun, (hp.plays (calm_attempts attempts) hplays).1, fun i hi => ?_, fun i hi => ?_, hpolls, horders⟩
  · obtain ⟨m, -, hid, hregion, hstate, -, hmoved, -⟩ := hdescribed i hi
    exact ⟨advance m, hmoved, by rw [id_advance, hid], by rw [region_advance, hregion], state_advance hstate⟩
  · obtain ⟨m, hm, hid, -, hstate, hin, -, status, hget⟩ := hdescribed i hi
    obtain ⟨j, hj, hregion⟩ := hlists i hi
    rw [hid, hj, Option.getD_some] at hget
    have hjin : Fleet.inGroups (Subset.byRegion targets) j = true := by
      rw [← hin]
      simp [Fleet.inGroups, hregion, (Fleet.mem_of_get? hj).2]
    have hreach := reachable_confirmIf_load (hp.regular m hm) hstate (Fleet.mem_of_get? hget).1 hjin
    have hseen := Fleet.get?_confirmEach (u.own.learn attempts)
      (((u.own.learn attempts).candidates (Subset.byRegion targets)).map Prod.fst) i.id
    rw [hget, Option.map_some, ← hown] at hseen
    obtain ⟨b, hb⟩ := Fleet.confirmIf_eq (((u.own.learn attempts).candidates (Subset.byRegion targets)).map Prod.fst)
      (j.load (record m) state status)
    rw [hb] at hseen hreach
    exact ⟨_, hseen, hregion, rfl, hreach⟩

end Polling

end Rehearsal

end CloudFleet
