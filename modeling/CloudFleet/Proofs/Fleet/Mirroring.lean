import CloudFleet.Proofs.Fleet.Repetition
import Mathlib.Data.List.Nodup

/-!
# A full refresh mirrors the provider

A region that answers both calls of a refresh of all instances gives a `Description`: its records, and the status
records. If every region does, every state can be read and no identifier occurs twice, the fleet after the refresh is
given by the fleet before it and the descriptions (`Mirrors`): what was described is as described, what was unknown is
listed after what was known, in the order of the regions and records, and what was not described is as it was, but for a
flag that a probe may have raised.

With distinct identifiers each instance has one sighting at most (`get?_seeAll_of_sighted`), the sightings of unknown
instances are the new entries (`entries_seeAll_of_nodup`), and every record has the last status of its identifier
(`withStatuses_of_nodup`). Main statement, for every fleet and world: `refresh_mirrors_the_provider`.
-/

set_option autoImplicit false

namespace CloudFleet

variable {σ : Type}

namespace Fleet

/-! ## Finding instances after sightings -/

theorem get?_added (f : Fleet) (id : InstanceId) (region : Region) (state : InstanceState) (other : InstanceId) :
    (f.apply (.added id region state)).get? other
      = (f.get? other).or (if id = other then some (.new id region state) else none) := by
  simp only [get?, instances_added, List.find?_append]
  by_cases h : id = other <;> simp [Instance.new, h]

theorem get?_loaded (f : Fleet) (record : InstanceRecord) (state : InstanceState) (status : Option StatusRecord)
    (id : InstanceId) : (f.apply (.loaded record state status)).get? id
      = (f.get? id).map fun i => if i.id = record.id then i.load record state status else i :=
  get?_map f (fun i => by split <;> rfl) id

/-- What is found after an observation: what was found before, unless it is the one that was observed. -/
theorem get?_see (f : Fleet) (region : Region) (o : Observation) (id : InstanceId) :
    (f.see region o).get? id = if id = o.record.id
      then some (((f.get? id).getD (.new id region o.state)).load o.record o.state o.status) else f.get? id := by
  unfold see
  rw [get?_loaded]
  by_cases hid : id = o.record.id
  · subst hid
    rw [if_pos rfl]
    cases hget : f.get? o.record.id with
    | some i =>
      have hk : f.knows o.record.id = true := by rw [knows, hget]; rfl
      simp [hk, hget, (mem_of_get? hget).2]
    | none =>
      have hk : f.knows o.record.id = false := by rw [knows, hget]; rfl
      simp [hk, get?_added, hget, Instance.new]
  · rw [if_neg hid]
    have hsame : (if f.knows o.record.id = true then f
        else f.apply (.added o.record.id region o.state)).get? id = f.get? id := by
      split
      · rfl
      · rw [get?_added, if_neg (Ne.symm hid), Option.or_none]
    rw [hsame]
    cases hget : f.get? id with
    | none => rfl
    | some i =>
      have hne : i.id ≠ o.record.id := (mem_of_get? hget).2 ▸ hid
      rw [Option.map_some, if_neg hne]

section Sightings

variable {f : Fleet} {xs : List (Region × Observation)}

theorem get?_seeAll_of_absent {id : InstanceId} (h : ∀ x ∈ xs, id ≠ x.2.record.id) :
    (f.seeAll xs).get? id = f.get? id := by
  induction xs generalizing f with
  | nil => rfl
  | cons x xs ih =>
    refine (ih fun y hy => h y (List.mem_cons_of_mem _ hy)).trans ?_
    rw [get?_see, if_neg (h x List.mem_cons_self)]

/-- An instance that is sighted once is then as it was sighted, and in its region if it is new. -/
theorem get?_seeAll_of_sighted (hn : (xs.map fun x => x.2.record.id).Nodup) {x : Region × Observation} (hx : x ∈ xs) :
    (f.seeAll xs).get? x.2.record.id = some (((f.get? x.2.record.id).getD (.new x.2.record.id x.1 x.2.state)).load
      x.2.record x.2.state x.2.status) := by
  induction xs generalizing f with
  | nil => cases hx
  | cons y xs ih =>
    obtain ⟨hy, hn⟩ := List.nodup_cons.mp hn
    rcases List.mem_cons.mp hx with rfl | hx
    · refine (get?_seeAll_of_absent fun z hz he => hy (List.mem_map.mpr ⟨z, hz, he.symm⟩)).trans ?_
      rw [get?_see, if_pos rfl]
    · have hne : x.2.record.id ≠ y.2.record.id := fun he => hy (List.mem_map.mpr ⟨x, hx, he⟩)
      refine (ih hn hx).trans ?_
      rw [get?_see, if_neg hne]

end Sightings

/-! ## Sightings of distinct instances -/

section Distinct

variable {f : Fleet} {xs : List (Region × Observation)}

/-- The sightings of unknown instances are the new entries. -/
theorem entries_seeAll_of_nodup (hn : (xs.map fun x => x.2.record.id).Nodup) : (f.seeAll xs).entries
    = f.entries ++ (xs.filter fun x => !f.knows x.2.record.id).map fun x => (x.2.record.id, x.1) := by
  induction xs generalizing f with
  | nil => exact (List.append_nil _).symm
  | cons x xs ih =>
    obtain ⟨hx, hn⟩ := List.nodup_cons.mp hn
    -- seeing the first one makes none of the others known
    have hsame : (xs.filter fun y => !(f.see x.1 x.2).knows y.2.record.id)
        = xs.filter fun y => !f.knows y.2.record.id := by
      refine List.filter_congr fun y hy => ?_
      have hne : y.2.record.id ≠ x.2.record.id := fun he => hx (List.mem_map.mpr ⟨y, hy, he⟩)
      rw [Bool.eq_iff_iff.mpr (knows_see_iff.trans (or_iff_left hne))]
    show ((f.see x.1 x.2).seeAll xs).entries = _
    rw [ih hn, hsame, entries_see, List.append_assoc]
    by_cases hk : f.knows x.2.record.id = true <;> simp [hk]

theorem ids_nodup_see (hn : (f.instances.map Instance.id).Nodup) (region : Region) (o : Observation) :
    ((f.see region o).instances.map Instance.id).Nodup := by
  refine ids_nodup_apply ?_ fun _ _ _ => nofun
  by_cases hk : f.knows o.record.id = true
  · rwa [if_pos hk]
  · rw [if_neg hk]
    refine ids_nodup_apply hn fun other region' state hadded => ?_
    cases hadded
    exact hk

/-- Sightings list no identifier twice. -/
theorem ids_nodup_seeAll (hn : (f.instances.map Instance.id).Nodup) (xs : List (Region × Observation)) :
    ((f.seeAll xs).instances.map Instance.id).Nodup := by
  induction xs generalizing f with
  | nil => exact hn
  | cons x xs ih => exact ih (ids_nodup_see hn x.1 x.2)

/-- An instance that is not sighted stays as it was. -/
theorem mem_seeAll_of_absent {i : Instance} (hi : i ∈ f.instances) (habsent : ∀ x ∈ xs, i.id ≠ x.2.record.id) :
    i ∈ (f.seeAll xs).instances := by
  obtain ⟨new, -, -, heq⟩ := instances_seeAll f xs
  rw [heq]
  exact List.mem_map.mpr ⟨i, List.mem_append_left _ hi, loadAll_of_absent habsent⟩

end Distinct

/-! ## Confirmations -/

/-- The instance found after confirmations is the one found before, confirmed if it is among them. -/
theorem get?_confirmEach (f : Fleet) (ids : List InstanceId) (id : InstanceId) :
    (f.confirmEach ids).get? id = (f.get? id).map (confirmIf ids) := get?_map f (id_confirmIf ids) id

/-- What confirming the candidates that answered does to an instance: nothing, or the flag goes up because its address
answered. -/
theorem confirmIf_answering {f : Fleet} (hn : (f.instances.map Instance.id).Nodup) (c : FleetConfig)
    (groups : List Group) (connections : List Connection) {i : Instance} (hi : i ∈ f.instances) :
    confirmIf ((answering (f.candidates groups) connections).map Prod.fst) i = i
    ∨ (confirmIf ((answering (f.candidates groups) connections).map Prod.fst) i = { i with reachable := true }
      ∧ i.reachable = false ∧ i.state = .running ∧ ∃ address, i.address = some address
      ∧ ⟨.probe address c.probePort c.probeTimeout, Connection.opened⟩
        ∈ probesOf c (f.candidates groups) connections) := by
  by_cases hm : i.id ∈ (answering (f.candidates groups) connections).map Prod.fst
  · obtain ⟨⟨id, address⟩, hx, hid⟩ := List.mem_map.mp hm
    obtain ⟨hcandidate, hprobe⟩ := mem_probesOf_of_mem_answering (c := c) hx
    obtain ⟨j, hj, hji, hrun, haddress, -, hflag⟩ := mem_candidates_iff.mp hcandidate
    -- the candidate of this identifier is the instance itself
    have hget := get?_of_mem hn hj
    rw [hji.trans hid, get?_of_mem hn hi] at hget
    obtain rfl := Option.some.inj hget
    refine Or.inr ⟨?_, hflag, hrun, address, haddress, hprobe⟩
    rw [confirmIf, if_pos hm, Instance.confirm, Instance.confirmable, hrun, haddress]
    rfl
  · exact Or.inl (if_neg hm)

/-! ## Descriptions -/

/-- The calls on the control plane, with the answers. -/
def calls (h : List (Happening Fleet)) : List ((r : Request) × r.Reply) := (questions h).filter fun x => x.1.calls

/-- What a region answered that was asked for all of its instances. -/
structure Description where
  region : Region
  records : List InstanceRecord
  statuses : List StatusRecord

namespace Description

/-- The two calls, with the answers. -/
def exchanges (d : Description) : List ((r : Request) × r.Reply) :=
  [⟨.cloud (.describeInstances d.region []), .ok d.records⟩, ⟨.cloud (.describeStatuses d.region []), .ok d.statuses⟩]

/-- The identifiers of the instances that were described. -/
def ids (d : Description) : List InstanceId := d.records.map InstanceRecord.id

/-- The last status record of an instance. -/
def lastStatus? (d : Description) (id : InstanceId) : Option StatusRecord :=
  (d.statuses.filter fun s => s.id == id).getLast?

def attempt (d : Description) : Attempt := .described (d.region, []) d.records d.statuses

end Description

/-- With distinct identifiers every record has the last status of its own. -/
theorem withStatuses_of_nodup {records : List InstanceRecord} (hn : (records.map InstanceRecord.id).Nodup)
    (statuses : List StatusRecord) : Cloud.withStatuses records statuses
      = records.map fun r => (r, (statuses.filter fun s => s.id == r.id).getLast?) := by
  induction records generalizing statuses with
  | nil => rfl
  | cons record records ih =>
    obtain ⟨hr, hn⟩ := List.nodup_cons.mp hn
    rw [Cloud.withStatuses, List.map_cons, ih hn]
    refine congrArg _ (List.map_congr_left fun r hm => ?_)
    -- the statuses that go to the first record are not among those of the others
    have hne : r.id ≠ record.id := fun he => hr (List.mem_map.mpr ⟨r, hm, he⟩)
    rw [List.filter_filter]
    refine congrArg (fun l => (r, List.getLast? l)) (List.filter_congr fun s _ => ?_)
    by_cases hs : s.id = r.id <;> simp [hs, hne]

/-- What is observed of a region that answered are its records, each with the state that it names. -/
theorem sightings_described (group : Group) {records : List InstanceRecord}
    (hn : (records.map InstanceRecord.id).Nodup) (statuses : List StatusRecord) :
    (Attempt.described group records statuses).sightings
      = records.filterMap fun r => (InstanceState.parse? r.state).map fun state =>
          (group.1, ⟨r, state, (statuses.filter fun s => s.id == r.id).getLast?⟩) := by
  have hfound : (Attempt.described group records statuses).found
      = records.map fun r => (r, (statuses.filter fun s => s.id == r.id).getLast?) := withStatuses_of_nodup hn statuses
  rw [Attempt.sightings, hfound, observationsOf, List.filterMap_map, List.map_filterMap]
  exact List.filterMap_congr fun r _ => Option.map_map _ _ _

theorem sightings_attempt {d : Description} (hn : d.ids.Nodup) : d.attempt.sightings
    = d.records.filterMap fun r => (InstanceState.parse? r.state).map fun state =>
        (d.region, ⟨r, state, d.lastStatus? r.id⟩) := sightings_described (d.region, []) hn d.statuses

theorem mem_sightings_attempt {d : Description} (hn : d.ids.Nodup) {r : InstanceRecord} (hr : r ∈ d.records)
    {state : InstanceState} (hstate : InstanceState.parse? r.state = some state) :
    (d.region, ⟨r, state, d.lastStatus? r.id⟩) ∈ d.attempt.sightings := by
  rw [sightings_attempt hn]
  exact List.mem_filterMap.mpr ⟨r, hr, by rw [hstate]; rfl⟩

/-- The calls of a refresh of all instances tell what came of it, if every region answered. -/
theorem attempts_eq_of_exchanges {attempts : List Attempt} {ds : List Description}
    (h : attempts.flatMap Attempt.exchanges = ds.flatMap Description.exchanges) :
    attempts = ds.map Description.attempt := by
  induction attempts generalizing ds with
  | nil =>
    cases ds with
    | nil => rfl
    | cons d ds => simp [Description.exchanges] at h
  | cons a attempts ih =>
    cases ds with
    | nil => cases a <;> simp [Attempt.exchanges] at h
    | cons d ds =>
      cases a with
      | unlisted group e => simp [Attempt.exchanges, Description.exchanges] at h
      | unchecked group records e => simp [Attempt.exchanges, Description.exchanges] at h
      | described group records statuses =>
        obtain ⟨region, ids⟩ := group
        obtain ⟨described, listed, checked⟩ := d
        simp only [List.flatMap_cons, Attempt.exchanges, Description.exchanges, List.cons_append, List.nil_append,
          List.cons.injEq] at h
        obtain ⟨hlisting, hhealth, hrest⟩ := h
        cases hlisting
        cases hhealth
        rw [List.map_cons, ih hrest]
        rfl

theorem Attempt.calls_of_mem_exchanges {a : Attempt} {x : (r : Request) × r.Reply} (h : x ∈ a.exchanges) :
    x.1.calls = true := by
  cases a <;> simp only [exchanges, List.mem_cons, List.not_mem_nil, or_false] at h <;> grind [Request.calls]

theorem exists_of_mem_probesOf {c : FleetConfig} {candidates : List (InstanceId × String)}
    {connections : List Connection} {x : (r : Request) × r.Reply} (h : x ∈ probesOf c candidates connections) :
    ∃ candidate ∈ candidates, x.1 = .probe candidate.2 c.probePort c.probeTimeout := by
  rw [probesOf, ← List.map_uncurry_zip_eq_zipWith] at h
  obtain ⟨⟨candidate, connection⟩, hm, rfl⟩ := List.mem_map.mp h
  exact ⟨candidate, (List.of_mem_zip hm).1, rfl⟩

theorem not_calls_of_mem_probesOf {c : FleetConfig} {candidates : List (InstanceId × String)}
    {connections : List Connection} {x : (r : Request) × r.Reply} (h : x ∈ probesOf c candidates connections) :
    x.1.calls = false := by
  obtain ⟨candidate, -, he⟩ := exists_of_mem_probesOf h
  rw [he]
  rfl

theorem filter_calls_exchanges (attempts : List Attempt) :
    (attempts.flatMap Attempt.exchanges).filter (fun x => x.1.calls) = attempts.flatMap Attempt.exchanges := by
  refine List.filter_eq_self.mpr fun x hx => ?_
  obtain ⟨a, -, hxa⟩ := List.mem_flatMap.mp hx
  exact Attempt.calls_of_mem_exchanges hxa

theorem filter_calls_probesOf (c : FleetConfig) (candidates : List (InstanceId × String))
    (connections : List Connection) : (probesOf c candidates connections).filter (fun x => x.1.calls) = [] := by
  refine List.filter_eq_nil_iff.mpr fun x hx => ?_
  rw [not_calls_of_mem_probesOf hx]
  exact Bool.false_ne_true

/-- The calls of a refresh are those that describe its groups. -/
theorem Refreshed.calls_eq {c : FleetConfig} {groups : List Group} {attempts : List Attempt}
    {connections : List Connection} {s t : Run Fleet σ} (h : Refreshed c groups attempts connections s t) :
    calls t.history = calls s.history ++ attempts.flatMap Attempt.exchanges := by
  rw [calls, h.questions_eq, List.filter_append, List.filter_append, filter_calls_exchanges, filter_calls_probesOf,
    List.append_nil]
  rfl

theorem Halted.calls_eq {groups : List Group} {before : List Attempt} {last : Attempt} {name : String}
    {s t : Run Fleet σ} (h : Halted groups before last name s t) :
    calls t.history = calls s.history ++ (before ++ [last]).flatMap Attempt.exchanges := by
  rw [calls, h.asks.questions_eq, List.filter_append, filter_calls_exchanges]
  rfl

/-! ## Refreshing all instances -/

/-- What the fleet is after a refresh of all instances, given what it was, the descriptions, and what happened. -/
structure Mirrors (f g : Fleet) (ds : List Description) (happened : List (Happening Fleet)) : Prop where
  /-- Every instance that was described is in the state of its record, has the address that is there and is not empty,
  and the text of its last status record; -/
  described : ∀ d ∈ ds, ∀ record ∈ d.records, ∃ i, g.get? record.id = some i
    ∧ InstanceState.parse? record.state = some i.state ∧ i.address = record.address.filter (· != "")
    ∧ i.status = (d.lastStatus? record.id).bind StatusRecord.status
  /-- those that were unknown are listed after the known ones, in the order of the regions and their records; -/
  entries_eq : g.entries = f.entries ++ ds.flatMap fun d =>
    (d.records.filter fun record => !f.knows record.id).map fun record => (record.id, d.region)
  /-- and an instance that was not described is as it was, or reachable now because its address answered a probe. -/
  undescribed : ∀ i ∈ f.instances, i.id ∉ ds.flatMap Description.ids → g.get? i.id = some i
    ∨ (g.get? i.id = some { i with reachable := true } ∧ i.reachable = false ∧ i.state = .running
      ∧ ∃ address, i.address = some address ∧ Answered address happened)

/-- What was observed in all descriptions. -/
def sightingsOf (ds : List Description) : List (Region × Observation) :=
  (ds.map Description.attempt).flatMap Attempt.sightings

section Observed

variable {ds : List Description} (hreadable : ∀ d ∈ ds, ∀ record ∈ d.records, record.readable = true)
  (hdistinct : (ds.flatMap Description.ids).Nodup)
include hreadable hdistinct

/-- Every record was observed in its region, in the order of the regions and their records. -/
theorem map_sightingsOf : (sightingsOf ds).map (fun x => (x.1, x.2.record))
    = ds.flatMap fun d => d.records.map fun record => (d.region, record) := by
  rw [sightingsOf, List.map_flatMap, List.flatMap_map]
  refine List.flatMap_congr fun d hd => ?_
  rw [sightings_attempt ((List.nodup_flatMap.mp hdistinct).1 d hd), List.map_filterMap, ← List.filterMap_eq_map]
  refine List.filterMap_congr fun r hr => ?_
  obtain ⟨state, hstate⟩ := Option.isSome_iff_exists.mp (hreadable d hd r hr)
  rw [hstate]
  rfl

/-- The identifiers observed are those described. -/
theorem ids_sightingsOf : (sightingsOf ds).map (fun x => x.2.record.id) = ds.flatMap Description.ids := by
  have := congrArg (List.map fun x => x.2.id) (map_sightingsOf hreadable hdistinct)
  rw [List.map_map, List.map_flatMap] at this
  refine this.trans (List.flatMap_congr fun d _ => ?_)
  rw [List.map_map]
  rfl

/-- A fleet mirrors what was observed in it, after the candidates that answered were confirmed. -/
theorem mirrors_confirmEach {f : Fleet} (hn : (f.instances.map Instance.id).Nodup) (c : FleetConfig)
    (groups : List Group) (connections : List Connection) {happened : List (Happening Fleet)}
    (hprobes : ∀ x ∈ probesOf c ((f.seeAll (sightingsOf ds)).candidates groups) connections, x ∈ questions happened) :
    Mirrors f ((f.seeAll (sightingsOf ds)).confirmEach
      ((answering ((f.seeAll (sightingsOf ds)).candidates groups) connections).map Prod.fst)) ds happened := by
  have hsighted : ((sightingsOf ds).map fun x => x.2.record.id).Nodup := by
    rw [ids_sightingsOf hreadable hdistinct]
    exact hdistinct
  refine ⟨fun d hd record hrecord => ?_, ?_, fun i hi hid => ?_⟩
  · obtain ⟨state, hstate⟩ := Option.isSome_iff_exists.mp (hreadable d hd record hrecord)
    have hx : (d.region, ⟨record, state, d.lastStatus? record.id⟩) ∈ sightingsOf ds :=
      List.mem_flatMap.mpr ⟨_, List.mem_map.mpr ⟨d, hd, rfl⟩,
        mem_sightings_attempt ((List.nodup_flatMap.mp hdistinct).1 d hd) hrecord hstate⟩
    have hget := get?_seeAll_of_sighted (f := f) hsighted hx
    generalize (f.get? record.id).getD (.new record.id d.region state) = i at hget
    -- a confirmation changes none of these fields
    obtain ⟨b, hb⟩ := confirmIf_eq ((answering ((f.seeAll (sightingsOf ds)).candidates groups) connections).map Prod.fst)
      (i.load record state (d.lastStatus? record.id))
    refine ⟨{ i.load record state (d.lastStatus? record.id) with reachable := b }, ?_, hstate, rfl, rfl⟩
    rw [get?_confirmEach, hget, Option.map_some, hb]
  · have hnew : ((sightingsOf ds).filter fun x => !f.knows x.2.record.id).map (fun x => (x.2.record.id, x.1))
        = (((sightingsOf ds).map fun x => (x.1, x.2.record)).filter fun x => !f.knows x.2.id).map fun x =>
          (x.2.id, x.1) := by
      rw [List.filter_map, List.map_map]
      rfl
    rw [entries_confirmEach, entries_seeAll_of_nodup hsighted, hnew, map_sightingsOf hreadable hdistinct,
      List.filter_flatMap, List.map_flatMap]
    refine congrArg _ (List.flatMap_congr fun d _ => ?_)
    rw [List.filter_map, List.map_map]
    rfl
  · have habsent : ∀ x ∈ sightingsOf ds, i.id ≠ x.2.record.id := fun x hx he => by
      rw [← ids_sightingsOf hreadable hdistinct] at hid
      exact hid (List.mem_map.mpr ⟨x, hx, he.symm⟩)
    have hmem := mem_seeAll_of_absent hi habsent
    have hnodup := ids_nodup_seeAll hn (sightingsOf ds)
    rw [get?_confirmEach, get?_of_mem hnodup hmem, Option.map_some]
    rcases confirmIf_answering hnodup c groups connections hmem with
      hsame | ⟨hraised, hflag, hrun, address, haddress, hprobe⟩
    · exact Or.inl (congrArg some hsame)
    · exact Or.inr ⟨congrArg some hraised, hflag, hrun, address, haddress, c.probePort, c.probeTimeout,
        mem_of_mem_questions (hprobes _ hprobe)⟩

end Observed

/-- A description whose states can be read has no unreadable one. -/
theorem unreadable?_attempt {d : Description} (hreadable : ∀ record ∈ d.records, record.readable = true) :
    d.attempt.unreadable? = none := by
  have hfind : d.attempt.found.find? (fun x => !x.1.readable) = none := by
    refine List.find?_eq_none.mpr fun x hx => ?_
    have hrecord : x.1 ∈ (Cloud.withStatuses d.records d.statuses).map Prod.fst := List.mem_map.mpr ⟨x, hx, rfl⟩
    rw [map_fst_withStatuses] at hrecord
    simpa using hreadable x.1 hrecord
  rw [Attempt.unreadable?, hfind]
  rfl

/-- A refresh of all instances, of a fleet that lists none twice, in any world: if all its calls were answered with
descriptions whose states can all be read and whose identifiers are distinct, these are of all regions in order, the
refresh succeeds, and afterwards the fleet mirrors them. -/
theorem refresh_mirrors_the_provider (w : World σ) (c : FleetConfig) (s : FleetRun σ) (ds : List Description)
    (hanswered : calls ((refresh c .all).run w s.toRun).2.history
      = calls s.history ++ ds.flatMap Description.exchanges)
    (hreadable : ∀ d ∈ ds, ∀ record ∈ d.records, record.readable = true)
    (hdistinct : (ds.flatMap Description.ids).Nodup) :
    ∃ t happened, (refresh c .all).run w s.toRun = (.returned (), t) ∧ t.history = s.history ++ happened
      ∧ ds.map Description.region = c.regions ∧ Mirrors s.own t.own ds happened := by
  obtain ⟨happened, hh, -⟩ := Program.run_history w (refresh c .all) s.toRun
  have hgroups : groupsOf c s.own .all = .ok (c.regions.map fun r => (r, [])) := rfl
  rcases refreshed_or_halted w c s.toRun hgroups with ⟨attempts, connections, t, hrun, h⟩ | ⟨before, last, name, t, hrun, h⟩
  · rw [hrun] at hh hanswered
    rw [h.calls_eq] at hanswered
    obtain rfl := attempts_eq_of_exchanges (List.append_cancel_left hanswered)
    have hsettled : (ds.map Description.attempt).filterMap Attempt.failure? = [] := by
      refine List.filterMap_eq_nil_iff.mpr fun a ha => ?_
      obtain ⟨d, -, rfl⟩ := List.mem_map.mp ha
      rfl
    have hregions := congrArg (List.map Prod.fst) h.groups_eq
    rw [List.map_map, List.map_map, List.map_map] at hregions
    refine ⟨t, happened, by rw [hrun, if_pos hsettled], hh, hregions.trans (List.map_id _), ?_⟩
    have hasked := questions_of_grown hh h.questions_eq
    rw [h.own_eq]
    refine mirrors_confirmEach hreadable hdistinct s.distinct c _ connections fun x hx => ?_
    rw [hasked]
    exact List.mem_append_right _ hx
  · -- a halted refresh was given a state that cannot be read
    rw [hrun, h.calls_eq] at hanswered
    have hlast : last ∈ ds.map Description.attempt := by
      rw [← attempts_eq_of_exchanges (List.append_cancel_left hanswered)]
      exact List.mem_append_right _ List.mem_cons_self
    obtain ⟨d, hd, rfl⟩ := List.mem_map.mp hlast
    have hbad := h.unreadable
    rw [unreadable?_attempt (hreadable d hd)] at hbad
    cases hbad

/-! ## A known, a new and a missing instance -/

/-- A cloud that describes two instances in one region, the status of one of them twice, and one without an address in
another region. Every probe is answered. -/
def settledCloud : World Unit where
  answer
    | .cloud (.describeInstances region _), _ =>
      (if region = ⟨"eu-west-3"⟩ then .ok [⟨"i-2", some "host-2", "pending"⟩, ⟨"i-1", some "host-1", "running"⟩]
        else .ok [⟨"i-3", some "", "stopped"⟩], ())
    | .cloud (.describeStatuses region _), _ =>
      (if region = ⟨"eu-west-3"⟩ then .ok [⟨"i-1", some "initializing"⟩, ⟨"i-1", some "ok"⟩] else .ok [], ())
    | .probe .., _ => (.opened, ())
    | r, _ => (r.unanswered, ())

/-- What that cloud describes. -/
def settledDescriptions : List Description :=
  [⟨⟨"eu-west-3"⟩, [⟨"i-2", some "host-2", "pending"⟩, ⟨"i-1", some "host-1", "running"⟩],
      [⟨"i-1", some "initializing"⟩, ⟨"i-1", some "ok"⟩]⟩,
   ⟨⟨"us-east-1"⟩, [⟨"i-3", some "", "stopped"⟩], []⟩]

/-- A fleet that knows one of these instances, and another one that is not described. -/
def settledRun : FleetRun Unit where
  own := { instances := [⟨"i-9", ⟨"eu-west-3"⟩, some "host-9", .running, false, none⟩,
    ⟨"i-1", ⟨"eu-west-3"⟩, none, .stopped, false, none⟩] }
  world := ()
  history := []
  distinct := by decide

theorem refresh_mirrors_the_provider_settled :
    ∃ t happened, (refresh { regions := [⟨"eu-west-3"⟩, ⟨"us-east-1"⟩] } .all).run settledCloud settledRun.toRun
        = (.returned (), t)
      ∧ Mirrors settledRun.own t.own settledDescriptions happened := by
  have hanswered : calls ((refresh { regions := [⟨"eu-west-3"⟩, ⟨"us-east-1"⟩] } .all).run settledCloud
      settledRun.toRun).2.history = settledDescriptions.flatMap Description.exchanges := by rfl
  obtain ⟨t, happened, hrun, -, -, hmirrors⟩ := refresh_mirrors_the_provider settledCloud
    { regions := [⟨"eu-west-3"⟩, ⟨"us-east-1"⟩] } settledRun settledDescriptions hanswered (by decide +kernel)
    (by decide)
  exact ⟨t, happened, hrun, hmirrors⟩

end Fleet

end CloudFleet
