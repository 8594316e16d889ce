import CloudFleet.Proofs.Fleet.DryRuns
import CloudFleet.Proofs.Fleet.Mirroring

/-!
# A narrow operation stays narrow

A call on no instances means all of its region, so an operation on few instances must never make one. The groups of
resolved instances are never empty and name nobody twice (`narrow_of_mem_byRegion`), and together they name exactly
these instances (`exactly_byRegion`). A refresh calls about its groups alone (`run_refresh_within`), and so do the
operations that move instances, also while they wait (`run_transiting_within`). If the provider answers with nobody
else, nobody else changes (`Framed`).

A refresh that meets a state that is none is cut short, and calls about the first groups only
(`a_refresh_that_is_cut_short`). Main statement, for every registry and world: `narrow_operations_stay_narrow`.
-/

set_option autoImplicit false

namespace CloudFleet

variable {σ : Type}

/-- The region and the instances that a call is about. -/
def Request.group? : Request → Option Group
  | .cloud (.describeInstances region ids) => some (region, ids)
  | .cloud (.describeStatuses region ids) => some (region, ids)
  | .cloud (.transition _ region ids _) => some (region, ids)
  | _ => none

/-- The region and the instances that a call lists. -/
def Request.listed? : Request → Option Group
  | .cloud (.describeInstances region ids) => some (region, ids)
  | _ => none

theorem Request.group?_of_not_calls {r : Request} (h : r.calls = false) : r.group? = none := by
  cases r <;> first | rfl | cases h

theorem Request.listed?_of_not_calls {r : Request} (h : r.calls = false) : r.listed? = none := by
  cases r <;> first | rfl | cases h

theorem Request.group?_of_listed? {r : Request} {group : Group} (h : r.listed? = some group) :
    r.group? = some group := by
  unfold listed? at h
  split at h
  · exact h
  · cases h

/-- A subset names no instance twice. -/
def Target.Distinct : Target → Prop
  | subset s => s.ids.Nodup
  | _ => True

namespace Fleet

/-! ## Groups of resolved instances -/

/-- The group names instances that are stored under its region, at least one and none twice. -/
structure Narrow (f : Fleet) (group : Group) : Prop where
  nonempty : group.2 ≠ []
  nodup : group.2.Nodup
  stored : ∀ id ∈ group.2, ∃ i, f.get? id = some i ∧ i.region = group.1

/-- Together the groups name these instances and nobody else. -/
def Exactly (targets : Subset) (groups : List Group) : Prop :=
  ∀ id, (∃ group ∈ groups, id ∈ group.2) ↔ id ∈ targets.ids

theorem exactly_byRegion (targets : Subset) : Exactly targets (Subset.byRegion targets) := by
  intro id
  constructor
  · rintro ⟨group, hgroup, hid⟩
    obtain ⟨i, hi, -, rfl⟩ := (Subset.parted_byRegion targets).exists_mem hgroup hid
    exact List.mem_map_of_mem hi
  · intro hid
    obtain ⟨i, hi, rfl⟩ := List.mem_map.mp hid
    obtain ⟨group, hgroup, -, hid⟩ := (Subset.parted_byRegion targets).exists_group hi
    exact ⟨group, hgroup, hid⟩

/-- Groups that are all called about, and no others, name what they name. -/
theorem Exactly.congr {targets : Subset} {groups called : List Group} (h : Exactly targets groups)
    (hsub : ∀ group ∈ called, group ∈ groups) (hall : ∀ group ∈ groups, group ∈ called) : Exactly targets called := by
  intro id
  rw [← h id]
  exact ⟨fun ⟨group, hgroup, hid⟩ => ⟨group, hsub group hgroup, hid⟩,
    fun ⟨group, hgroup, hid⟩ => ⟨group, hall group hgroup, hid⟩⟩

theorem narrow_of_mem_byRegion {f : Fleet} (hn : (f.instances.map Instance.id).Nodup) {targets : Subset}
    (htargets : ∀ i ∈ targets, i ∈ f.instances) (hdistinct : targets.ids.Nodup) {group : Group}
    (hgroup : group ∈ Subset.byRegion targets) : Narrow f group := by
  have hparted := Subset.parted_byRegion targets
  refine ⟨hparted.nonempty group hgroup, ?_, fun id hid => ?_⟩
  · rw [hparted.ids group hgroup]
    exact hdistinct.sublist (List.filter_sublist.map _)
  · obtain ⟨i, hi, hregion, rfl⟩ := hparted.exists_mem hgroup hid
    exact ⟨i, get?_of_mem hn (htargets i hi), hregion⟩

/-- What a target names it names once. -/
theorem nodup_of_resolve {f : Fleet} (hn : (f.instances.map Instance.id).Nodup) {target : Target}
    (hdistinct : target.Distinct) {is : Subset} (h : f.resolve target = .ok is) : is.ids.Nodup := by
  cases target with
  | all =>
    cases h
    exact hn
  | id id =>
    cases hi : f.lookup id with
    | error e => simp [resolve, hi, Except.map] at h
    | ok i =>
      simp only [resolve, hi, Except.map, Except.ok.injEq] at h
      subst h
      exact List.nodup_singleton _
  | index index =>
    rw [resolve] at h
    split at h
    · cases h
      exact List.nodup_singleton _
    · cases h
  | ids ids =>
    rw [ids_lookupAll h, firstMentions_eq_eraseDups]
    exact nodup_eraseDups ids
  | subset s =>
    rw [ids_lookupAll h]
    exact hdistinct
  | matching p =>
    cases h
    exact hn.sublist (List.filter_sublist.map _)

theorem nodup_of_chosen {f : Fleet} (hn : (f.instances.map Instance.id).Nodup) {default : Fleet → Subset}
    (hdefault : (default f).ids.Nodup) {target : Option Target} (hdistinct : ∀ t ∈ target, t.Distinct)
    {targets : Subset} (h : f.chosen target default = .ok targets) : targets.ids.Nodup := by
  cases target with
  | some target => exact nodup_of_resolve hn (hdistinct target rfl) h
  | none =>
    cases h
    exact hdefault

theorem nodup_default {f : Fleet} (hn : (f.instances.map Instance.id).Nodup) (kind : Transition) :
    (kind.default f).ids.Nodup := by
  cases kind <;> exact hn.sublist (List.filter_sublist.map _)

/-- The groups of a target that is not all instances are those of the instances that it names. -/
theorem groupsOf_of_ne_all (c : FleetConfig) (f : Fleet) {target : Target} (h : target ≠ .all) :
    groupsOf c f target = (f.resolve target).map Subset.byRegion := by
  cases target <;> first | rfl | exact absurd rfl h

/-! ## What stays as it was -/

/-- No instance was added, and none changed that is in none of the groups. -/
structure Framed (groups : List Group) (f g : Fleet) : Prop where
  entries_eq : g.entries = f.entries
  kept : ∀ i ∈ f.instances, (∀ group ∈ groups, i.id ∉ group.2) → i ∈ g.instances

namespace Framed

variable {groups : List Group} {f g h : Fleet}

theorem refl (groups : List Group) (f : Fleet) : Framed groups f f := ⟨rfl, fun _ hi _ => hi⟩

theorem trans (hfg : Framed groups f g) (hgh : Framed groups g h) : Framed groups f h :=
  ⟨hgh.entries_eq.trans hfg.entries_eq, fun i hi hnone => hgh.kept i (hfg.kept i hi hnone) hnone⟩

/-- An update of instances of the groups. -/
theorem updateEach {ids : List InstanceId} (hids : ∀ id ∈ ids, ∃ group ∈ groups, id ∈ group.2)
    {change : Instance → Instance} (hid : ∀ i, (change i).id = i.id) (hregion : ∀ i, (change i).region = i.region) :
    Framed groups f (f.updateEach ids change) := by
  refine ⟨?_, fun i hi hnone => List.mem_map.mpr ⟨i, hi, if_neg fun hm => ?_⟩⟩
  · simp only [entries, Fleet.updateEach, List.map_map]
    refine List.map_congr_left fun i _ => ?_
    by_cases h : i.id ∈ ids <;> simp [h, hid, hregion]
  · obtain ⟨group, hgroup, hm⟩ := hids _ hm
    exact hnone group hgroup hm

/-- Sightings of known instances of the groups. -/
theorem seeAll {xs : List (Region × Observation)} (hknown : ∀ x ∈ xs, f.knows x.2.record.id = true)
    (hxs : ∀ x ∈ xs, ∃ group ∈ groups, x.2.record.id ∈ group.2) : Framed groups f (f.seeAll xs) := by
  refine ⟨?_, fun i hi hnone => mem_seeAll_of_absent hi fun x hx he => ?_⟩
  · simp only [entries, instances_seeAll_of_knows hknown, List.map_map]
    exact List.map_congr_left fun i _ => by simp
  · obtain ⟨group, hgroup, hm⟩ := hxs x hx
    exact hnone group hgroup (he ▸ hm)

end Framed

/-- The groups can be called about: none is empty, and all of their instances are known. -/
def Callable (f : Fleet) (groups : List Group) : Prop :=
  ∀ group ∈ groups, group.2 ≠ [] ∧ ∀ id ∈ group.2, f.knows id = true

theorem callable_byRegion {f : Fleet} {targets : Subset} (htargets : ∀ i ∈ targets, i ∈ f.instances) :
    Callable f (Subset.byRegion targets) := by
  have hparted := Subset.parted_byRegion targets
  refine fun group hgroup => ⟨hparted.nonempty group hgroup, fun id hid => ?_⟩
  obtain ⟨i, hi, -, rfl⟩ := hparted.exists_mem hgroup hid
  exact knows_iff.mpr ⟨i, htargets i hi, rfl⟩

theorem Callable.replay {f : Fleet} {groups : List Group} (h : Callable f groups) (new : List (Happening Fleet)) :
    Callable (replay f new) groups := fun group hgroup =>
  ⟨(h group hgroup).1, fun id hid => knows_replay ((h group hgroup).2 id hid) new⟩

/-- Candidates for a probe are instances of the groups. -/
theorem exists_of_mem_candidates {f g : Fleet} {groups : List Group} (h : Callable f groups) {id : InstanceId}
    {address : String} (hm : (id, address) ∈ g.candidates groups) : ∃ group ∈ groups, id ∈ group.2 := by
  obtain ⟨i, -, rfl, -, -, hgroups, -⟩ := mem_candidates_iff.mp hm
  obtain ⟨group, hgroup, hin⟩ := List.any_eq_true.mp hgroups
  have hne := (h group hgroup).1
  refine ⟨group, hgroup, ?_⟩
  simpa [hne] using (Bool.and_eq_true_iff.mp hin).2

/-- What was described was listed. -/
theorem listed_of_mem_found {a : Attempt} {x : InstanceRecord × Option StatusRecord} (hx : x ∈ a.found) :
    ∃ records, ⟨.cloud (.describeInstances a.group.1 a.group.2), .ok records⟩ ∈ a.exchanges ∧ x.1 ∈ records := by
  cases a with
  | unlisted group e => cases hx
  | unchecked group records e => cases hx
  | described group records statuses =>
    refine ⟨records, List.mem_cons_self, ?_⟩
    rw [← map_fst_withStatuses records statuses]
    exact List.mem_map_of_mem hx

theorem listed_of_mem_sightings {a : Attempt} {x : Region × Observation} (hx : x ∈ a.sightings) :
    ∃ records, ⟨.cloud (.describeInstances a.group.1 a.group.2), .ok records⟩ ∈ a.exchanges
      ∧ x.2.record ∈ records := by
  obtain ⟨o, ho, rfl⟩ := List.mem_map.mp hx
  obtain ⟨found, hfound, hstate⟩ := List.mem_filterMap.mp ho
  obtain ⟨state, -, rfl⟩ := Option.map_eq_some_iff.mp hstate
  exact listed_of_mem_found hfound

/-- What was learned in attempts that list only whom they asked for. -/
theorem framed_learn {f : Fleet} {groups : List Group} (h : Callable f groups) {attempts : List Attempt}
    (hattempts : ∀ a ∈ attempts, a.group ∈ groups)
    (honly : ∀ a ∈ attempts, ∀ records, ⟨.cloud (.describeInstances a.group.1 a.group.2), .ok records⟩ ∈ a.exchanges →
      ∀ record ∈ records, record.id ∈ a.group.2) : Framed groups f (f.learn attempts) := by
  have hxs : ∀ x ∈ attempts.flatMap Attempt.sightings, ∃ group ∈ groups, x.2.record.id ∈ group.2 := by
    intro x hx
    obtain ⟨a, ha, hx⟩ := List.mem_flatMap.mp hx
    obtain ⟨records, hasked, hrecord⟩ := listed_of_mem_sightings hx
    exact ⟨a.group, hattempts a ha, honly a ha records hasked _ hrecord⟩
  refine .seeAll (fun x hx => ?_) hxs
  obtain ⟨group, hgroup, hid⟩ := hxs x hx
  exact (h group hgroup).2 _ hid

/-! ## Calls about groups -/

/-- The groups that the provider was called about. -/
def groupsCalled (h : List (Happening Fleet)) : List Group := (questions h).filterMap fun x => x.1.group?

/-- The groups whose instances were listed. -/
def listings (h : List (Happening Fleet)) : List Group := (questions h).filterMap fun x => x.1.listed?

/-- The groups whose regions were called to move them. -/
def groupsMoved (h : List (Happening Fleet)) : List Group := (orders h).filterMap fun x => x.1.group?

/-- The provider lists only instances that it was asked for. -/
def AnswersOnly (h : List (Happening Fleet)) : Prop :=
  ∀ region ids records, .asked (.cloud (.describeInstances region ids)) (.ok records) ∈ h →
    ∀ record ∈ records, record.id ∈ ids

theorem groupsCalled_append (h k : List (Happening Fleet)) :
    groupsCalled (h ++ k) = groupsCalled h ++ groupsCalled k := by
  simp [groupsCalled, questions_append]

theorem mem_groupsCalled_of_mem_listings {h : List (Happening Fleet)} {group : Group} (hm : group ∈ listings h) :
    group ∈ groupsCalled h := by
  obtain ⟨x, hx, hlisted⟩ := List.mem_filterMap.mp hm
  exact List.mem_filterMap.mpr ⟨x, hx, Request.group?_of_listed? hlisted⟩

/-- Since the first run nobody was called about but these groups, and if the provider answered with nobody else, nobody
else changed. -/
structure Within (groups : List Group) (s t : Run Fleet σ) (new : List (Happening Fleet)) : Prop where
  history : t.history = s.history ++ new
  own : t.own = replay s.own new
  called : ∀ group ∈ groupsCalled new, group ∈ groups
  framed : AnswersOnly new → Framed groups s.own t.own

namespace Within

variable {groups : List Group} {s t u : Run Fleet σ} {new later : List (Happening Fleet)}

theorem refl (groups : List Group) (s : Run Fleet σ) : Within groups s s [] :=
  ⟨by simp, rfl, by simp [groupsCalled, questions, exchanges], fun _ => .refl groups s.own⟩

theorem trans (h : Within groups s u new) (hlater : Within groups u t later) : Within groups s t (new ++ later) := by
  refine ⟨?_, ?_, fun group hgroup => ?_, fun honly => ?_⟩
  · rw [hlater.history, h.history, List.append_assoc]
  · rw [hlater.own, h.own, replay_append]
  · rw [groupsCalled_append] at hgroup
    exact (List.mem_append.mp hgroup).elim (h.called group) (hlater.called group)
  · have hfirst := h.framed fun region ids records hm => honly region ids records (List.mem_append_left _ hm)
    exact hfirst.trans (hlater.framed fun region ids records hm =>
      honly region ids records (List.mem_append_right _ hm))

/-- Whatever is asked of others than the provider. -/
theorem ask (groups : List Group) (w : World σ) (s : Run Fleet σ) {r : Request} (hr : r.calls = false) :
    Within groups s (s.ask w r) [.asked r (s.reply w r)] := by
  refine ⟨rfl, rfl, fun group hgroup => ?_, fun _ => .refl groups s.own⟩
  obtain ⟨x, hx, hgroup⟩ := List.mem_filterMap.mp hgroup
  obtain rfl : x = ⟨r, s.reply w r⟩ := by
    have := List.mem_of_mem_filter hx
    simpa [exchanges] using this
  rw [Request.group?_of_not_calls hr] at hgroup
  cases hgroup

end Within

/-! ## Refreshing -/

theorem Attempt.group?_of_mem_exchanges {a : Attempt} {x : (r : Request) × r.Reply} (h : x ∈ a.exchanges) :
    x.1.group? = some a.group := by
  cases a <;> simp only [exchanges, List.mem_cons, List.not_mem_nil, or_false] at h <;> grind [Request.group?, group]

theorem Attempt.listed_exchanges (a : Attempt) : a.exchanges.filterMap (fun x => x.1.listed?) = [a.group] := by
  cases a <;> rfl

/-- What attempts call about are their groups, each of which they list. -/
theorem called_attempts {h : List (Happening Fleet)} {attempts : List Attempt} {rest : List ((r : Request) × r.Reply)}
    (hasked : questions h = attempts.flatMap Attempt.exchanges ++ rest) (hrest : ∀ x ∈ rest, x.1.calls = false) :
    listings h = attempts.map Attempt.group ∧ ∀ group ∈ groupsCalled h, group ∈ attempts.map Attempt.group := by
  have hnone : rest.filterMap (fun x => x.1.listed?) = [] :=
    List.filterMap_eq_nil_iff.mpr fun x hx => Request.listed?_of_not_calls (hrest x hx)
  refine ⟨?_, fun group hgroup => ?_⟩
  · rw [listings, hasked, List.filterMap_append, hnone, List.append_nil, List.filterMap_flatMap]
    simp only [Attempt.listed_exchanges]
    exact (List.map_eq_flatMap ..).symm
  · obtain ⟨x, hx, hgroup⟩ := List.mem_filterMap.mp hgroup
    rw [hasked] at hx
    rcases List.mem_append.mp hx with hx | hx
    · obtain ⟨a, ha, hxa⟩ := List.mem_flatMap.mp hx
      rw [Attempt.group?_of_mem_exchanges hxa] at hgroup
      exact List.mem_map.mpr ⟨a, ha, Option.some.inj hgroup⟩
    · rw [Request.group?_of_not_calls (hrest x hx)] at hgroup
      cases hgroup

theorem AnswersOnly.listed {h : List (Happening Fleet)} (hanswers : AnswersOnly h) {attempts : List Attempt}
    {rest : List ((r : Request) × r.Reply)} (hasked : questions h = attempts.flatMap Attempt.exchanges ++ rest) :
    ∀ a ∈ attempts, ∀ records, ⟨.cloud (.describeInstances a.group.1 a.group.2), .ok records⟩ ∈ a.exchanges →
      ∀ record ∈ records, record.id ∈ a.group.2 := by
  intro a ha records hm
  refine hanswers a.group.1 a.group.2 records (mem_of_mem_questions ?_)
  rw [hasked]
  exact List.mem_append_left _ (List.mem_flatMap.mpr ⟨a, ha, hm⟩)

/-- The first groups were listed, up to one of a region that named a state that is none. -/
structure CutShort (groups : List Group) (name : String) (new : List (Happening Fleet)) : Prop where
  listings_prefix : listings new <+: groups
  unreadable : ∃ region ids records, (listings new).getLast? = some (region, ids)
    ∧ .asked (.cloud (.describeInstances region ids)) (.ok records) ∈ new
    ∧ ∃ record ∈ records, record.readable = false ∧ record.state = name

section Ends

variable {c : FleetConfig} {groups : List Group} {attempts before : List Attempt} {last : Attempt} {name : String}
  {connections : List Connection} {s t : Run Fleet σ} {new : List (Happening Fleet)}

theorem Refreshed.within (h : Refreshed c groups attempts connections s t) (hcallable : Callable s.own groups)
    (hh : t.history = s.history ++ new) (hown : t.own = replay s.own new) :
    Within groups s t new ∧ listings new = groups := by
  have hasked := questions_of_grown hh h.questions_eq
  obtain ⟨hlisted, hcalled⟩ := called_attempts hasked fun x hx => not_calls_of_mem_probesOf hx
  rw [h.groups_eq] at hlisted hcalled
  refine ⟨⟨hh, hown, hcalled, fun hanswers => ?_⟩, hlisted⟩
  rw [h.own_eq]
  have hlearned : Framed groups s.own (s.own.learn attempts) :=
    framed_learn hcallable (fun a ha => h.groups_eq ▸ List.mem_map_of_mem ha) (hanswers.listed hasked)
  -- whom the probes confirm is a candidate, and candidates are of the groups
  refine hlearned.trans (.updateEach (fun id hid => ?_) (fun _ => rfl) fun _ => rfl)
  obtain ⟨⟨id, address⟩, hx, rfl⟩ := List.mem_map.mp hid
  exact exists_of_mem_candidates hcallable (mem_probesOf_of_mem_answering (c := c) hx).1

theorem Halted.within (h : Halted groups before last name s t) (hcallable : Callable s.own groups)
    (hh : t.history = s.history ++ new) (hown : t.own = replay s.own new) :
    Within groups s t new ∧ CutShort groups name new := by
  have hquestions := questions_of_grown hh h.asks.questions_eq
  have hasked : questions new = (before ++ [last]).flatMap Attempt.exchanges ++ [] := by
    rw [hquestions, List.append_nil]
  obtain ⟨hlisted, hcalled⟩ := called_attempts hasked (by simp)
  refine ⟨⟨hh, hown, fun group hgroup => h.groups_prefix.subset (hcalled group hgroup), fun hanswers => ?_⟩, ?_⟩
  · rw [h.own_eq]
    refine framed_learn hcallable (fun a ha => ?_) fun a ha => hanswers.listed hasked a (List.mem_append_left _ ha)
    exact h.groups_prefix.subset (List.mem_map_of_mem (List.mem_append_left _ ha))
  · obtain ⟨x, hx, rfl⟩ := Option.map_eq_some_iff.mp h.unreadable
    obtain ⟨records, hm, hrecord⟩ := listed_of_mem_found (List.mem_of_find?_eq_some hx)
    refine ⟨hlisted ▸ h.groups_prefix, last.group.1, last.group.2, records, ?_, mem_of_mem_questions ?_, x.1, hrecord,
      by simpa using List.find?_some hx, rfl⟩
    · rw [hlisted, List.map_append]
      exact List.getLast?_concat
    · rw [hquestions]
      exact List.mem_flatMap.mpr ⟨last, List.mem_append_right _ (List.mem_singleton_self last), hm⟩

end Ends

/-- The groups of a refresh are the only ones that it calls about. It lists all of them in order, unless a state that is
none cuts it short. -/
theorem run_refresh_within (w : World σ) (c : FleetConfig) {target : Target} {groups : List Group} {s : Run Fleet σ}
    (hgroups : groupsOf c s.own target = .ok groups) (hcallable : Callable s.own groups) :
    ∃ ending t new, (refresh c target).run w s = (ending, t) ∧ Within groups s t new
      ∧ (listings new = groups ∨ ∃ name, ending = .failed (.unknownState name) ∧ CutShort groups name new) := by
  obtain ⟨new, hh, hown⟩ := Program.run_history w (refresh c target) s
  rcases refreshed_or_halted w c s hgroups with ⟨attempts, connections, t, hrun, h⟩ | ⟨before, last, name, t, hrun, h⟩
  · rw [hrun] at hh hown
    obtain ⟨hwithin, hlisted⟩ := h.within hcallable hh hown
    exact ⟨_, t, new, hrun, hwithin, Or.inl hlisted⟩
  · rw [hrun] at hh hown
    obtain ⟨hwithin, hcut⟩ := h.within hcallable hh hown
    exact ⟨_, t, new, hrun, hwithin, Or.inr ⟨name, rfl, hcut⟩⟩

/-! ## Moving instances -/

/-- Calls that move groups are about these groups. -/
theorem called_moves {h : List (Happening Fleet)} {kind : Transition} {dryRun : Bool} {moves : List Move}
    (hasked : questions h
      = moves.map fun m => ⟨.cloud (.transition kind m.group.1 m.group.2 dryRun), m.answer⟩) :
    groupsCalled h = moves.map Move.group ∧ groupsMoved h = moves.map Move.group := by
  have hcalled : groupsCalled h = moves.map Move.group := by
    rw [groupsCalled, hasked, List.filterMap_map]
    exact congrFun List.filterMap_eq_map moves
  refine ⟨hcalled, ?_⟩
  rw [groupsMoved, orders, hasked, List.filter_eq_self.mpr fun x hx => ?_, ← hasked]
  · exact hcalled
  · obtain ⟨m, -, rfl⟩ := List.mem_map.mp hx
    rfl

/-- The calls of a transition are about its groups, and only these are moved. -/
theorem run_transitionGroups_within (w : World σ) (kind : Transition) (dryRun : Bool) (groups : List Group)
    (s : Run Fleet σ) :
    ∃ failures t new, (transitionGroups kind dryRun groups).run w s = (.returned failures, t)
      ∧ Within groups s t new ∧ groupsMoved new = groups := by
  obtain ⟨new, hh, hown⟩ := Program.run_history w (transitionGroups kind dryRun groups) s
  cases dryRun with
  | true =>
    obtain ⟨trials, t, hrun, rfl, hasks, hsame⟩ := run_trialGroups w kind groups s
    rw [hrun] at hh hown
    obtain ⟨hcalled, hmoved⟩ := called_moves (questions_of_grown hh hasks.questions_eq)
    exact ⟨_, t, new, hrun, ⟨hh, hown, fun _ hm => hcalled ▸ hm, fun _ => by rw [hsame]; exact .refl _ s.own⟩, hmoved⟩
  | false =>
    obtain ⟨moves, t, hrun, rfl, hsending⟩ := run_transitionGroups w kind groups s
    rw [hrun] at hh hown
    obtain ⟨hcalled, hmoved⟩ := called_moves (questions_of_grown hh hsending.asks.questions_eq)
    refine ⟨_, t, new, hrun, ⟨hh, hown, fun _ hm => hcalled ▸ hm, fun _ => ?_⟩, hmoved⟩
    rw [hsending.own_eq]
    refine .updateEach (fun id hid => ?_) (fun _ => rfl) fun _ => rfl
    obtain ⟨m, hm, hid⟩ := List.mem_flatMap.mp hid
    exact ⟨m.group, List.mem_map_of_mem hm, (mem_moved.mp hid).2⟩

/-- Waiting for instances to arrive calls about their groups alone. -/
theorem keeps_within_arriving (w : World σ) (c : FleetConfig) (patience : Nat) (kind : Transition) (dryRun : Bool)
    {targets : Subset} {s : FleetRun σ} (htargets : ∀ i ∈ targets, i ∈ s.own.instances) :
    Program.Keeps w (fun t => ∃ new, Within (Subset.byRegion targets) s.toRun t new)
      (arriving c patience kind dryRun targets) := by
  have hgroups : groupsOf c s.own (.subset targets) = .ok (Subset.byRegion targets) := by
    show (s.own.resolve (.subset targets)).map Subset.byRegion = _
    rw [resolve_subset_of_mem s.distinct htargets]
    rfl
  -- the groups were settled before the calls, and every refresh finds the same ones again
  have hrefresh : Program.Keeps w (fun t => ∃ new, Within (Subset.byRegion targets) s.toRun t new)
      (refresh c (.subset targets)) := by
    rintro t ⟨new, h⟩
    have hmore : s.own.entries <+: t.own.entries := h.own ▸ entries_replay s.own new
    obtain ⟨ending, u, later, hrun, hlater, -⟩ := run_refresh_within w c (groupsOf_of_more c rfl hmore hgroups)
      (h.own ▸ (callable_byRegion htargets).replay new)
    rw [hrun]
    exact ⟨_, h.trans hlater⟩
  unfold arriving
  split
  · exact keeps_reread targets
  · exact (keeps_pollUntil (fun t r _ _ hr ⟨new, h⟩ => ⟨_, h.trans (.ask _ w t hr)⟩) hrefresh patience _ _).bind
      fun _ => keeps_reread targets

/-- An operation that moves instances calls about their groups alone, and moves exactly these, also while it waits. -/
theorem run_transiting_within (w : World σ) (c : FleetConfig) (patience : Nat) {kind : Transition}
    {target : Option Target} {targets : Subset} (dryRun : Bool) {s : FleetRun σ}
    (htargets : s.own.chosen target kind.default = .ok targets)
    (hstate : ∀ expected, kind.required? = some expected → ∀ i ∈ targets, i.state = expected) :
    ∃ ending t new, (transiting c patience kind target dryRun).run w s.toRun = (ending, t)
      ∧ Within (Subset.byRegion targets) s.toRun t new ∧ groupsMoved new = Subset.byRegion targets := by
  obtain ⟨failures, u, first, hrun, hfirst, hmoved⟩ :=
    run_transitionGroups_within w kind dryRun (Subset.byRegion targets) s.toRun
  have hmem := mem_of_chosen htargets (mem_of_mem_default kind s.own)
  rw [run_transiting w c patience dryRun htargets hstate, Program.run_andThen_of_returned hrun]
  obtain ⟨new, hnew⟩ := ((keeps_settle failures).bind fun _ =>
    keeps_within_arriving w c patience kind dryRun hmem) u ⟨first, hfirst⟩
  have horders : orders (_ : Run Fleet σ).history = orders u.history := ((keeps_settle failures).bind fun _ =>
    (observant_orders w (orders u.history)).arriving c patience kind dryRun targets) u rfl
  refine ⟨_, _, new, rfl, hnew, ?_⟩
  rw [hnew.history, hfirst.history, orders_append, orders_append] at horders
  rw [groupsMoved, List.append_cancel_left horders]
  exact hmoved

/-! ## Narrow operations -/

/-- Since the first run the provider was called about these instances alone, in narrow groups, and if it answered with
nobody else, nobody was added and nobody else changed. -/
structure Confined (targets : Subset) (s t : Run Fleet σ) (new : List (Happening Fleet)) : Prop where
  history : t.history = s.history ++ new
  narrow : ∀ group ∈ groupsCalled new, Narrow s.own group ∧ group.2 ⊆ targets.ids
  framed : AnswersOnly new → t.own.entries = s.own.entries
    ∧ ∀ i ∈ s.own.instances, i.id ∉ targets.ids → i ∈ t.own.instances

theorem Within.confined {targets : Subset} {s t : Run Fleet σ} {new : List (Happening Fleet)}
    (h : Within (Subset.byRegion targets) s t new) (hn : (s.own.instances.map Instance.id).Nodup)
    (htargets : ∀ i ∈ targets, i ∈ s.own.instances) (hdistinct : targets.ids.Nodup) : Confined targets s t new where
  history := h.history
  narrow group hgroup :=
    ⟨narrow_of_mem_byRegion hn htargets hdistinct (h.called group hgroup),
      fun id hid => (exactly_byRegion targets id).mp ⟨group, h.called group hgroup, hid⟩⟩
  framed honly :=
    ⟨(h.framed honly).entries_eq, fun i hi hid => (h.framed honly).kept i hi fun group hgroup hm =>
      hid ((exactly_byRegion targets i.id).mp ⟨group, hgroup, hm⟩)⟩

section Operations

theorem refresh_confined (w : World σ) (c : FleetConfig) {s : FleetRun σ} {target : Target} (hne : target ≠ .all)
    (hdistinct : target.Distinct) {is : Subset} (his : s.own.resolve target = .ok is) :
    ∃ ending t new, (refresh c target).run w s.toRun = (ending, t) ∧ Confined is s.toRun t new
      ∧ (listings new = Subset.byRegion is ∧ Exactly is (groupsCalled new)
        ∨ ∃ name, ending = .failed (.unknownState name) ∧ CutShort (Subset.byRegion is) name new) := by
  have hmem : ∀ i ∈ is, i ∈ s.own.instances := fun i hi => mem_of_resolve his hi
  have hgroups : groupsOf c s.own target = .ok (Subset.byRegion is) := by
    rw [groupsOf_of_ne_all c s.own hne, his]
    rfl
  obtain ⟨ending, t, new, hrun, hwithin, hlisted⟩ := run_refresh_within w c hgroups (callable_byRegion hmem)
  refine ⟨ending, t, new, hrun, hwithin.confined s.distinct hmem (nodup_of_resolve s.distinct hdistinct his),
    hlisted.imp_left fun hall => ⟨hall, (exactly_byRegion is).congr hwithin.called fun group hgroup => ?_⟩⟩
  exact mem_groupsCalled_of_mem_listings (hall ▸ hgroup)

variable {kind : Transition} {target : Option Target} {targets : Subset}

theorem transiting_unresolved (w : World σ) (c : FleetConfig) (patience : Nat) (dryRun : Bool) {s : Run Fleet σ}
    {e : FleetError} (he : s.own.chosen target kind.default = .error e) :
    (transiting c patience kind target dryRun).run w s = (.failed e, s) := by
  have hresolved := run_targetsOr w target kind.default s
  rw [he] at hresolved
  rw [transiting_eq]
  exact Program.run_andThen_of_failed hresolved _

theorem transiting_refused (w : World σ) (c : FleetConfig) (patience : Nat) (dryRun : Bool) {s : Run Fleet σ}
    (htargets : s.own.chosen target kind.default = .ok targets)
    (hrefused : ¬∀ expected, kind.required? = some expected → ∀ i ∈ targets, i.state = expected) :
    ∃ e, (transiting c patience kind target dryRun).run w s = (.failed e, s) := by
  obtain ⟨e, he⟩ := (run_requireFor_or w kind targets s).resolve_left fun ⟨hstate, _⟩ => hrefused hstate
  have hresolved := run_targetsOr w target kind.default s
  rw [htargets] at hresolved
  rw [transiting_eq, Program.run_andThen_of_returned hresolved]
  exact ⟨e, Program.run_andThen_of_failed he _⟩

theorem transiting_confined (w : World σ) (c : FleetConfig) (patience : Nat) (dryRun : Bool) {s : FleetRun σ}
    (hdistinct : ∀ t ∈ target, t.Distinct) (htargets : s.own.chosen target kind.default = .ok targets)
    (hstate : ∀ expected, kind.required? = some expected → ∀ i ∈ targets, i.state = expected) :
    ∃ ending t new, (transiting c patience kind target dryRun).run w s.toRun = (ending, t)
      ∧ Confined targets s.toRun t new ∧ Exactly targets (groupsMoved new) := by
  obtain ⟨ending, t, new, hrun, hwithin, hmoved⟩ := run_transiting_within w c patience dryRun htargets hstate
  have hmem := mem_of_chosen htargets (mem_of_mem_default kind s.own)
  have hnodup := nodup_of_chosen s.distinct (nodup_default s.distinct kind) hdistinct htargets
  refine ⟨ending, t, new, hrun, hwithin.confined s.distinct hmem hnodup, ?_⟩
  rw [hmoved]
  exact exactly_byRegion targets

end Operations

/-- For every registry that lists no identifier twice, and whatever is answered. A refresh of a target that is not all
instances calls about narrow groups of the resolved instances alone, and together they are exactly these, unless a state
that is none cuts the refresh short; then the first groups were called about, up to the one in which it was found. The
operations that move instances call about narrow groups too, and move exactly the resolved instances, unless one of
these is in a state that is refused; then they call about nobody. A target that cannot be resolved is an error without
any call. -/
theorem narrow_operations_stay_narrow (w : World σ) (c : FleetConfig) (s : FleetRun σ) :
    (∀ target, target ≠ .all → target.Distinct →
      (∀ e, s.own.resolve target = .error e → (refresh c target).run w s.toRun = (.failed e, s.toRun))
      ∧ ∀ is, s.own.resolve target = .ok is → ∃ ending t new, (refresh c target).run w s.toRun = (ending, t)
        ∧ Confined is s.toRun t new
        ∧ (listings new = Subset.byRegion is ∧ Exactly is (groupsCalled new)
          ∨ ∃ name, ending = .failed (.unknownState name) ∧ CutShort (Subset.byRegion is) name new))
    ∧ ∀ patience kind (target : Option Target) dryRun, (∀ t ∈ target, t.Distinct) →
      (∀ e, s.own.chosen target kind.default = .error e →
        (transiting c patience kind target dryRun).run w s.toRun = (.failed e, s.toRun))
      ∧ ∀ targets, s.own.chosen target kind.default = .ok targets →
        ((∀ expected, kind.required? = some expected → ∀ i ∈ targets, i.state = expected) →
          ∃ ending t new, (transiting c patience kind target dryRun).run w s.toRun = (ending, t)
            ∧ Confined targets s.toRun t new ∧ Exactly targets (groupsMoved new))
        ∧ (¬(∀ expected, kind.required? = some expected → ∀ i ∈ targets, i.state = expected) →
          ∃ e, (transiting c patience kind target dryRun).run w s.toRun = (.failed e, s.toRun)) := by
  refine ⟨fun target hne hdistinct => ⟨fun e he => refresh_unresolved w c ?_, fun is his => ?_⟩,
    fun patience kind target dryRun hdistinct => ⟨fun e he => ?_, fun targets htargets => ⟨?_, ?_⟩⟩⟩
  · rw [groupsOf_of_ne_all c s.own hne, he]
    rfl
  · exact refresh_confined w c hne hdistinct his
  · exact transiting_unresolved w c patience dryRun he
  · exact transiting_confined w c patience dryRun hdistinct htargets
  · exact transiting_refused w c patience dryRun htargets

/-! ## A cloud that knows whoever it is asked for -/

/-- A cloud that lists whoever it is asked for, in a state for each region, and agrees to everything. -/
def echoingCloud (state : Region → String) : World Unit where
  answer
    | .cloud (.describeInstances region ids), _ => (.ok (ids.map fun id => ⟨id, some id, state region⟩), ())
    | .cloud (.describeStatuses ..), _ => (.ok [], ())
    | .cloud (.transition ..), _ => (.ok (), ())
    | .probe .., _ => (.opened, ())
    | r, _ => (r.unanswered, ())

theorem answersOnly_echoing {α : Type} (state : Region → String) {p : FleetProgram α} {s t : Run Fleet Unit}
    {ending : Ending FleetError α} {new : List (Happening Fleet)} (hrun : p.run (echoingCloud state) s = (ending, t))
    (hh : t.history = s.history ++ new) : AnswersOnly new := by
  intro region ids records hm record hrecord
  obtain ⟨new', hh', hanswers⟩ := Program.run_answers (echoingCloud state) p s
  rw [hrun, hh] at hh'
  obtain rfl := List.append_cancel_left hh'
  obtain ⟨_, he⟩ := hanswers _ _ hm
  obtain rfl : records = ids.map fun id => ⟨id, some id, state region⟩ := Except.ok.inj he
  obtain ⟨id, hid, rfl⟩ := List.mem_map.mp hrecord
  exact hid

theorem narrow_operations_stay_narrow_echoing :
    (∃ t new, (refresh {} (.ids ["i-2", "i-1", "i-2"])).run (echoingCloud fun _ => "running") halfStopped.toRun
        = (.returned (), t) ∧ t.history = new ∧ Exactly stoppedPair (groupsCalled new)
      ∧ .new "i-3" ⟨"eu-west-3"⟩ .running ∈ t.own.instances)
    ∧ (∃ t new, (refresh {} (.matching fun _ => false)).run (echoingCloud fun _ => "running") halfStopped.toRun
        = (.returned (), t) ∧ t.history = new ∧ listings new = [])
    ∧ ∃ t new, (transiting {} 1 .start (some (.ids ["i-2", "i-1"])) false).run (echoingCloud fun _ => "running")
        halfStopped.toRun = (.returned (t.own.instances.take 2).reverse, t)
      ∧ Confined stoppedPair halfStopped.toRun t new ∧ Exactly stoppedPair (groupsMoved new) := by
  obtain ⟨hrefresh, hmoving⟩ := narrow_operations_stay_narrow (echoingCloud fun _ => "running") {} halfStopped
  refine ⟨?_, ?_, ?_⟩
  · obtain ⟨ending, t, new, hrun, hconfined, hlisted⟩ :=
      (hrefresh (.ids ["i-2", "i-1", "i-2"]) nofun trivial).2 stoppedPair rfl
    obtain rfl : ending = .returned () := (congrArg Prod.fst hrun).symm.trans rfl
    obtain ⟨-, hexactly⟩ := hlisted.resolve_right fun ⟨_, he, _⟩ => nomatch he
    have hframed := (hconfined.framed (answersOnly_echoing _ hrun hconfined.history)).2
    exact ⟨t, new, hrun, hconfined.history, hexactly,
      hframed (.new "i-3" ⟨"eu-west-3"⟩ .running) (by decide) (by decide)⟩
  · obtain ⟨ending, t, new, hrun, hconfined, hlisted⟩ := (hrefresh (.matching fun _ => false) nofun trivial).2 [] rfl
    obtain rfl : ending = .returned () := (congrArg Prod.fst hrun).symm.trans rfl
    obtain ⟨hnone, -⟩ := hlisted.resolve_right fun ⟨_, he, _⟩ => nomatch he
    exact ⟨t, new, hrun, hconfined.history, hnone⟩
  · have hstate : ∀ expected, Transition.start.required? = some expected → ∀ i ∈ stoppedPair, i.state = expected := by
      intro expected he i hi
      cases he
      rcases List.mem_pair.mp hi with rfl | rfl <;> rfl
    obtain ⟨ending, t, new, hrun, hconfined, hmoved⟩ :=
      ((hmoving 1 .start (some (.ids ["i-2", "i-1"])) false (by simp [Target.Distinct])).2 stoppedPair rfl).1 hstate
    obtain rfl : ending = .returned (t.own.instances.take 2).reverse := by
      have hending := congrArg Prod.fst hrun
      have hlast := congrArg Prod.snd hrun
      dsimp only at hending hlast
      rw [← hending, ← hlast]
      rfl
    exact ⟨t, new, hrun, hconfined, hmoved⟩

/-- What a refresh of two instances does if the region of the first one answers with a state that is none. -/
def refreshHibernating : Ending FleetError Unit × Run Fleet Unit :=
  (refresh {} (.ids ["i-1", "i-2"])).run
    (echoingCloud fun region => if region = ⟨"eu-west-3"⟩ then "hibernating" else "running") halfStopped.toRun

/-- The refresh ends there, so the region of the second one is never called. -/
theorem a_refresh_that_is_cut_short :
    halfStopped.own.resolve (.ids ["i-1", "i-2"]) = .ok stoppedPair.reverse
    ∧ refreshHibernating.1 = .failed (.unknownState "hibernating")
    ∧ (∀ group ∈ groupsCalled refreshHibernating.2.history, group = (⟨"eu-west-3"⟩, ["i-1"]))
    ∧ ¬Exactly stoppedPair.reverse (groupsCalled refreshHibernating.2.history) := by
  have hcalled : ∀ group ∈ groupsCalled refreshHibernating.2.history, group = (⟨"eu-west-3"⟩, ["i-1"]) := by
    decide +kernel
  refine ⟨rfl, rfl, hcalled, fun h => ?_⟩
  obtain ⟨group, hgroup, hid⟩ := (h "i-2").mpr (by decide)
  rw [hcalled group hgroup] at hid
  exact absurd hid (by decide)

end Fleet

end CloudFleet
