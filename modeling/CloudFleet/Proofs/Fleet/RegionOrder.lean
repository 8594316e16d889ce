import CloudFleet.Proofs.Fleet.Mirroring

/-!
# The order of the regions

A refresh of all instances describes one region after the other. In a world that always gives the same answers it does
not matter in which order, if every state can be read and no instance is described in two regions: what is learned is
the same but for the order of the new instances (`SameButOrder`), the same regions fail, and the same addresses are
probed.

What is known of an instance depends on its own sightings alone (`get?_seeAll_about`, `loadAll_about`). They come from
one region, so their order is that of its records, wherever the region stands (`about_flatMap_of_perm`). The instances
being the same, so are those to probe (`candidates_perm`), wherever they are stored.

Main statement, for every fleet: `refresh_of_reordered_regions`.
-/

set_option autoImplicit false

namespace CloudFleet

variable {σ : Type}

/-- The address, if the request is a probe. -/
def Request.probed? : Request → Option String
  | .probe address .. => some address
  | _ => none

namespace Fleet

/-! ## Reordering lists -/

/-- Where no two elements contribute both, the order of the elements does not show. -/
theorem flatMap_eq_of_perm {α β : Type} {as bs : List α} (h : as.Perm bs) {g : α → List β}
    (hone : as.Pairwise fun a b => g a = [] ∨ g b = []) : as.flatMap g = bs.flatMap g := by
  induction h with
  | nil => rfl
  | cons a _ ih => rw [List.flatMap_cons, List.flatMap_cons, ih (List.pairwise_cons.mp hone).2]
  | swap a b l =>
    rcases (List.pairwise_cons.mp hone).1 a List.mem_cons_self with hg | hg <;> simp [hg]
  | trans h _ ih ih' => exact (ih hone).trans (ih' (h.pairwise hone fun h => h.symm))

/-! ## The sightings of one instance -/

/-- The sightings that are of the identifier. -/
def about (xs : List (Region × Observation)) (id : InstanceId) : List (Region × Observation) :=
  xs.filter fun x => x.2.record.id = id

/-- An instance takes over nothing but its own sightings. -/
theorem loadAll_about (xs : List (Region × Observation)) (i : Instance) : loadAll (about xs i.id) i = loadAll xs i := by
  induction xs generalizing i with
  | nil => rfl
  | cons x xs ih =>
    by_cases h : i.id = x.2.record.id
    · rw [about, List.filter_cons_of_pos (by simpa using h.symm), loadAll_cons_of_eq h, loadAll_cons_of_eq h]
      exact ih _
    · rw [about, List.filter_cons_of_neg (by simpa using Ne.symm h), loadAll_cons_of_ne h]
      exact ih i

/-- What is known of an identifier after sightings depends on what was known of it, and on its own sightings. -/
theorem get?_seeAll_about {f g : Fleet} {id : InstanceId} (h : f.get? id = g.get? id)
    (xs : List (Region × Observation)) : (f.seeAll xs).get? id = (g.seeAll (about xs id)).get? id := by
  induction xs generalizing f g with
  | nil => exact h
  | cons x xs ih =>
    by_cases hx : x.2.record.id = id
    · rw [about, List.filter_cons_of_pos (by simpa using hx)]
      exact ih (by rw [get?_see, get?_see, h])
    · rw [about, List.filter_cons_of_neg (by simpa using hx)]
      exact ih (by rw [get?_see, if_neg (Ne.symm hx), h])

/-- The sightings of an instance are the same in another order of the attempts, if no two of them sighted it both. -/
theorem about_flatMap_of_perm {as bs : List Attempt} (h : as.Perm bs) {id : InstanceId}
    (hone : as.Pairwise fun a b => about a.sightings id = [] ∨ about b.sightings id = []) :
    about (as.flatMap Attempt.sightings) id = about (bs.flatMap Attempt.sightings) id := by
  rw [about, about, List.filter_flatMap, List.filter_flatMap]
  exact flatMap_eq_of_perm h hone

/-! ## What is known, but for the order -/

/-- A fleet that grew from another lists what the other knew, as it is now, and then new instances, each once. -/
structure Grown (f g : Fleet) (known new : List Instance) : Prop where
  instances_eq : g.instances = known ++ new
  entries_eq : (known.map fun i => (i.id, i.region)) = f.entries
  unknown : ∀ i ∈ new, ¬f.knows i.id = true
  nodup : (new.map Instance.id).Nodup

/-- Two fleets that grew from one know the same of every identifier, and list the same in the same order, but for the
new instances. -/
structure SameButOrder (f g h : Fleet) : Prop where
  get?_eq : ∀ id, g.get? id = h.get? id
  images_eq : g.images = h.images
  listed : ∃ known new new', Grown f g known new ∧ Grown f h known new' ∧ new.Perm new'

section Same

variable {f g h : Fleet} {known known' new new' : List Instance} {xs ys : List (Region × Observation)}

/-- The new instances are those that are found now and were unknown. -/
theorem Grown.mem_new_iff (hg : Grown f g known new) {i : Instance} :
    i ∈ new ↔ ¬f.knows i.id = true ∧ g.get? i.id = some i := by
  have hknown : ∀ j ∈ known, f.knows j.id = true := fun j hj =>
    knows_iff_mem_entries.mpr ⟨j.region, hg.entries_eq ▸ List.mem_map.mpr ⟨j, hj, rfl⟩⟩
  constructor
  · intro hi
    have hnone : (known.find? fun j => j.id == i.id) = none := List.find?_eq_none.mpr fun j hj he => by
      rw [beq_iff_eq] at he
      exact hg.unknown i hi (he ▸ hknown j hj)
    refine ⟨hg.unknown i hi, ?_⟩
    rw [get?, hg.instances_eq, List.find?_append, hnone, Option.none_or]
    exact find?_id_of_nodup hg.nodup hi
  · rintro ⟨hunknown, hget⟩
    have hm := (mem_of_get? hget).1
    rw [hg.instances_eq, List.mem_append] at hm
    exact hm.resolve_left fun hi => hunknown (hknown i hi)

/-- Who knows the same of every identifier has the same new instances. -/
theorem Grown.new_perm (hg : Grown f g known new) (hh : Grown f h known' new')
    (hget : ∀ id, g.get? id = h.get? id) : new.Perm new' := by
  refine (List.perm_ext_iff_of_nodup (.of_map _ hg.nodup) (.of_map _ hh.nodup)).mpr fun i => ?_
  rw [hg.mem_new_iff, hh.mem_new_iff, hget]

theorem Grown.confirmEach (hg : Grown f g known new) (ids : List InstanceId) :
    Grown f (g.confirmEach ids) (known.map (confirmIf ids)) (new.map (confirmIf ids)) := by
  refine ⟨?_, ?_, fun i hi => ?_, ?_⟩
  · rw [instances_confirmEach, hg.instances_eq, List.map_append]
  · rw [← hg.entries_eq, List.map_map]
    refine List.map_congr_left fun i _ => ?_
    obtain ⟨b, hb⟩ := confirmIf_eq ids i
    simp [hb]
  · obtain ⟨j, hj, rfl⟩ := List.mem_map.mp hi
    rw [id_confirmIf]
    exact hg.unknown j hj
  · have hids : Instance.id ∘ confirmIf ids = Instance.id := funext (id_confirmIf ids)
    rw [List.map_map, hids]
    exact hg.nodup

theorem grown_seeAll (f : Fleet) (xs : List (Region × Observation)) :
    ∃ new, Grown f (f.seeAll xs) (f.instances.map (loadAll xs)) new := by
  obtain ⟨new, hnew, hnodup, heq⟩ := instances_seeAll f xs
  have hids : Instance.id ∘ loadAll xs = Instance.id := funext (id_loadAll xs)
  refine ⟨new.map (loadAll xs), ?_, ?_, fun i hi => ?_, ?_⟩
  · rw [heq, List.map_append]
  · simp [entries, Function.comp_def]
  · obtain ⟨j, hj, rfl⟩ := List.mem_map.mp hi
    rw [id_loadAll]
    exact (hnew j hj).1
  · rw [List.map_map, hids]
    exact hnodup

/-- Sightings that are the same for each instance make fleets that are the same but for the order. -/
theorem sameButOrder_seeAll (f : Fleet) (hsame : ∀ id, about xs id = about ys id) :
    SameButOrder f (f.seeAll xs) (f.seeAll ys) := by
  have hget : ∀ id, (f.seeAll xs).get? id = (f.seeAll ys).get? id := fun id => by
    rw [get?_seeAll_about (f := f) rfl xs, get?_seeAll_about (f := f) rfl ys, hsame]
  have hload : loadAll xs = loadAll ys := funext fun i => by rw [← loadAll_about xs, ← loadAll_about ys, hsame]
  obtain ⟨new, hg⟩ := grown_seeAll f xs
  obtain ⟨new', hh⟩ := grown_seeAll f ys
  rw [← hload] at hh
  exact ⟨hget, by rw [images_seeAll, images_seeAll], _, new, new', hg, hh, hg.new_perm hh hget⟩

theorem SameButOrder.perm (hs : SameButOrder f g h) : g.instances.Perm h.instances := by
  obtain ⟨known, new, new', hg, hh, hnew⟩ := hs.listed
  rw [hg.instances_eq, hh.instances_eq]
  exact hnew.append_left known

/-- Confirming the same instances makes no difference to what is the same. -/
theorem SameButOrder.confirmEach (hs : SameButOrder f g h) {ids ids' : List InstanceId} (hids : ids.Perm ids') :
    SameButOrder f (g.confirmEach ids) (h.confirmEach ids') := by
  have hconfirm : confirmIf ids = confirmIf ids' := funext fun i => by simp only [confirmIf, hids.mem_iff]
  obtain ⟨known, new, new', hg, hh, hnew⟩ := hs.listed
  refine ⟨fun id => ?_, hs.images_eq, _, _, _, hg.confirmEach ids, ?_, hnew.map (confirmIf ids)⟩
  · rw [get?_confirmEach, get?_confirmEach, hs.get?_eq, hconfirm]
  · rw [hconfirm]
    exact hh.confirmEach ids'

end Same

/-! ## Whom to probe -/

/-- The candidates do not depend on the order of the instances and groups, but for their own. -/
theorem candidates_perm {g h : Fleet} (hinstances : g.instances.Perm h.instances) {groups groups' : List Group}
    (hgroups : groups.Perm groups') : (g.candidates groups).Perm (h.candidates groups') := by
  have hin : inGroups groups = inGroups groups' := funext fun i => hgroups.any_eq
  rw [candidates, candidates, hin]
  exact (hinstances.filter _).filterMap _

theorem answeringIds_perm {g h : Fleet} (hinstances : g.instances.Perm h.instances) {groups groups' : List Group}
    (hgroups : groups.Perm groups') (c : FleetConfig) (answer : (r : Request) → r.Reply) :
    (answeringIds c groups answer g).Perm (answeringIds c groups' answer h) :=
  ((candidates_perm hinstances hgroups).filter _).map _

/-- The addresses probed, in order. -/
def probed (h : List (Happening Fleet)) : List String := (questions h).filterMap fun x => x.1.probed?

theorem filterMap_probed?_exchanges (attempts : List Attempt) :
    (attempts.flatMap Attempt.exchanges).filterMap (fun x => x.1.probed?) = [] := by
  refine List.filterMap_eq_nil_iff.mpr fun x hx => ?_
  obtain ⟨a, -, hxa⟩ := List.mem_flatMap.mp hx
  cases a <;> simp only [Attempt.exchanges, List.mem_cons, List.not_mem_nil, or_false] at hxa <;>
    grind [Request.probed?]

theorem filterMap_probed?_probesOf (c : FleetConfig) {candidates : List (InstanceId × String)}
    {connections : List Connection} (hlength : connections.length = candidates.length) :
    (probesOf c candidates connections).filterMap (fun x => x.1.probed?) = candidates.map Prod.snd := by
  induction candidates generalizing connections with
  | nil => rfl
  | cons candidate candidates ih =>
    cases connections with
    | nil => cases hlength
    | cons connection connections => exact congrArg (candidate.2 :: ·) (ih (Nat.succ.inj hlength))

/-- A refresh probes the addresses of its candidates. -/
theorem Refreshed.probed_eq {c : FleetConfig} {groups : List Group} {attempts : List Attempt}
    {connections : List Connection} {s t : Run Fleet σ} (h : Refreshed c groups attempts connections s t) :
    probed t.history = probed s.history ++ ((s.own.learn attempts).candidates groups).map Prod.snd := by
  rw [probed, h.questions_eq, List.filterMap_append, List.filterMap_append, filterMap_probed?_exchanges,
    filterMap_probed?_probesOf c h.length_eq]
  rfl

/-! ## Refreshing all instances -/

/-- The identifiers that were described. -/
def Attempt.ids (a : Attempt) : List InstanceId := a.found.map fun x => x.1.id

/-- What comes of describing all of a region, in one state of the world. -/
def reportOf (w : World σ) (world : σ) (region : Region) : Attempt := Attempt.expected (answerAt w world) (region, [])

/-- How a refresh ends in which these regions failed. -/
def endingOf (failures : List Failure) : Ending FleetError Unit :=
  if failures = [] then .returned () else .failed (.provider failures)

/-- What was not described is not sighted. -/
theorem about_sightings_of_not_mem {a : Attempt} {id : InstanceId} (h : id ∉ a.ids) : about a.sightings id = [] := by
  refine List.filter_eq_nil_iff.mpr fun x hx he => h ?_
  obtain ⟨o, ho, rfl⟩ := List.mem_map.mp hx
  obtain ⟨y, hy, hyo⟩ := List.mem_filterMap.mp ho
  obtain ⟨state, -, rfl⟩ := Option.map_eq_some_iff.mp hyo
  exact List.mem_map.mpr ⟨y, hy, of_decide_eq_true he⟩

section Reports

variable {w : World σ} {world : σ} {regions regions' : List Region}

/-- The sightings of each instance are the same in another order of the regions, if no two describe it. -/
theorem about_reports (hperm : regions'.Perm regions) (hdistinct : regions.Nodup)
    (honce : ∀ r ∈ regions, ∀ r' ∈ regions, ∀ id ∈ (reportOf w world r).ids, id ∈ (reportOf w world r').ids → r = r')
    (id : InstanceId) : about ((regions.map (reportOf w world)).flatMap Attempt.sightings) id
      = about ((regions'.map (reportOf w world)).flatMap Attempt.sightings) id := by
  refine about_flatMap_of_perm (hperm.symm.map _) (List.pairwise_map.mpr ?_)
  refine hdistinct.pairwise_of_forall_ne fun r hr r' hr' hne => ?_
  by_cases hid : id ∈ (reportOf w world r).ids
  · exact Or.inr (about_sightings_of_not_mem fun hid' => hne (honce r hr r' hr' id hid hid'))
  · exact Or.inl (about_sightings_of_not_mem hid)

/-- A refresh of regions in a steady world whose states can all be read. -/
theorem refresh_reports (hw : Steady w) (c : FleetConfig) (world : σ) (s : Run Fleet σ)
    (hreadable : ∀ r ∈ c.regions, (reportOf w world r).unreadable? = none) :
    ∃ t connections,
      (refresh c .all).run w s = (endingOf ((c.regions.map (reportOf w world)).filterMap Attempt.failure?), t)
      ∧ t.own = taking ((c.regions.map (reportOf w world)).flatMap Attempt.sightings)
          (answeringIds c (c.regions.map fun r => (r, [])) (answerAt w world)) s.own
      ∧ Refreshed c (c.regions.map fun r => (r, [])) (c.regions.map (reportOf w world)) connections s t := by
  have hexpected : (c.regions.map fun r => ((r, []) : Group)).map (Attempt.expected (answerAt w world))
      = c.regions.map (reportOf w world) := List.map_map
  have hgroups : groupsOf c s.own .all = .ok (c.regions.map fun r => (r, [])) := rfl
  obtain ⟨t, hrun, hown, connections, h⟩ :=
    refresh_of_steady_of_readable c hw world hexpected (List.forall_mem_map.mpr hreadable) hgroups
  exact ⟨t, connections, hrun, hown, h⟩

end Reports

/-- In a world that always gives the same answers, a refresh of all instances in another order of its distinct regions
learns the same, if all states can be read and no instance is described in two regions: the fleets are the same but for
the order of the new instances, the same regions fail with the same errors, the same addresses are probed, and the
refreshes announced are the same. -/
theorem refresh_of_reordered_regions {w : World σ} (hw : Steady w) (c : FleetConfig) {regions : List Region}
    (hperm : regions.Perm c.regions) (hdistinct : c.regions.Nodup) (s : Run Fleet σ)
    (hreadable : ∀ r ∈ c.regions, (reportOf w s.world r).unreadable? = none)
    (honce : ∀ r ∈ c.regions, ∀ r' ∈ c.regions, ∀ id ∈ (reportOf w s.world r).ids,
      id ∈ (reportOf w s.world r').ids → r = r') :
    ∃ failures failures' addresses addresses' t t',
      (refresh c .all).run w s = (endingOf failures, t)
      ∧ (refresh { c with regions } .all).run w s = (endingOf failures', t')
      ∧ failures.Perm failures' ∧ SameButOrder s.own t.own t'.own
      ∧ probed t.history = probed s.history ++ addresses ∧ probed t'.history = probed s.history ++ addresses'
      ∧ addresses.Perm addresses' ∧ refreshes t.history = refreshes t'.history := by
  obtain ⟨t, connections, hrun, hown, h⟩ := refresh_reports hw c s.world s hreadable
  obtain ⟨t', connections', hrun', hown', h'⟩ := refresh_reports hw { c with regions } s.world s fun r hr =>
    hreadable r (hperm.subset hr)
  have hgroups := hperm.symm.map fun r => ((r, []) : Group)
  have hreports := hperm.symm.map (reportOf w s.world)
  have hsame : SameButOrder s.own (s.own.learn (c.regions.map (reportOf w s.world)))
      (s.own.learn (regions.map (reportOf w s.world))) :=
    sameButOrder_seeAll s.own (about_reports hperm hdistinct honce)
  refine ⟨_, _, _, _, t, t', hrun, hrun', hreports.filterMap _, ?_, h.probed_eq, h'.probed_eq,
    (candidates_perm hsame.perm hgroups).map _, ?_⟩
  · rw [hown, hown']
    exact hsame.confirmEach (answeringIds_perm hsame.perm hgroups c _)
  · rw [h.refreshes_eq, h'.refreshes_eq, hgroups.length_eq, (hreports.flatMap_right Attempt.found).length_eq]

/-! ## Two regions that describe instances, and one that fails -/

/-- A cloud in which one region describes an instance twice and another one once, a second region describes a third
instance, and every other region fails. One host answers its probes. -/
def scatteredCloud : World Unit where
  answer
    | .cloud (.describeInstances region _), _ =>
      (if region = ⟨"eu-west-3"⟩ then
          .ok [⟨"i-2", some "host-2", "running"⟩, ⟨"i-1", none, "pending"⟩, ⟨"i-1", some "host-1", "running"⟩]
        else if region = ⟨"us-east-1"⟩ then .ok [⟨"i-3", some "host-3", "running"⟩]
        else .error (.unknownRegion region), ())
    | .cloud (.describeStatuses ..), _ => (.ok [⟨"i-3", some "ok"⟩], ())
    | .probe address .., _ => (if address = "host-1" then .opened else .timedOut, ())
    | r, _ => (r.unanswered, ())

/-- A fleet that stores one of these instances under a region that does not describe it, and another instance. -/
def scatteredFleet : Fleet :=
  { instances := [⟨"i-1", ⟨"us-east-1"⟩, none, .stopped, false, none⟩,
      ⟨"i-9", ⟨"ap-south-1"⟩, some "host-9", .running, false, none⟩] }

/-- The regions of that cloud, and the one that the fleet stores the other instance under. -/
def scatteredConfig : FleetConfig := { regions := [⟨"eu-west-3"⟩, ⟨"us-east-1"⟩, ⟨"ap-south-1"⟩] }

/-- The same regions in another order. -/
def reorderedRegions : List Region := [⟨"ap-south-1"⟩, ⟨"us-east-1"⟩, ⟨"eu-west-3"⟩]

/-- The new instances trade places; the stored one is probed and confirmed in both orders. -/
theorem refresh_of_reordered_regions_scattered :
    (∃ failures failures' addresses addresses' t t',
      (refresh scatteredConfig .all).run scatteredCloud ⟨scatteredFleet, (), []⟩ = (endingOf failures, t)
      ∧ (refresh { scatteredConfig with regions := reorderedRegions } .all).run scatteredCloud ⟨scatteredFleet, (), []⟩
        = (endingOf failures', t')
      ∧ failures.Perm failures' ∧ SameButOrder scatteredFleet t.own t'.own
      ∧ probed t.history = addresses ∧ probed t'.history = addresses'
      ∧ addresses.Perm addresses' ∧ refreshes t.history = refreshes t'.history)
    ∧ ((refresh scatteredConfig .all).run scatteredCloud ⟨scatteredFleet, (), []⟩).2.own.instances.map
        (fun i => (i.id, i.reachable)) = [("i-1", true), ("i-9", false), ("i-2", false), ("i-3", false)]
    ∧ ((refresh { scatteredConfig with regions := reorderedRegions } .all).run scatteredCloud
        ⟨scatteredFleet, (), []⟩).2.own.instances.map
        (fun i => (i.id, i.reachable)) = [("i-1", true), ("i-9", false), ("i-3", false), ("i-2", false)] := by
  have hsteady : Steady scatteredCloud := fun r _ x y => rfl
  refine ⟨refresh_of_reordered_regions hsteady scatteredConfig (by decide) (by decide) ⟨scatteredFleet, (), []⟩
    (by decide +kernel) (by decide +kernel), by decide +kernel, by decide +kernel⟩

end Fleet

end CloudFleet
