import CloudFleet.Proofs.Fleet.Mirroring
import CloudFleet.Proofs.Rehearsal.Playing

/-!
# A registry in accord with a control plane

A description shows a machine as it was, and moves it on: whoever was told of it is one step behind. So a registry and a
control plane are in accord (`Accords`) if every instance is as a machine of the plane is now, or was before its last
step (`ControlPlane.Was`). An instance that runs is not on its way, and its machine runs too (`Was.running`).

Descriptions keep the accord, whichever groups they are of, and an instance that runs goes on running
(`Accords.learn`). So does whatever neither moves nor launches instances (`Accords.plays`).
-/

set_option autoImplicit false

namespace CloudFleet

open Rehearsal Rehearsal.ControlPlane

namespace Fleet

/-! ## Instances that run -/

/-- The instance of the identifier runs, in the region. -/
def RunsAt (f : Fleet) (e : InstanceId × Region) : Prop :=
  ∃ i, f.get? e.1 = some i ∧ i.region = e.2 ∧ i.state = .running

theorem RunsAt.congr {f g : Fleet} {e : InstanceId × Region} (h : f.RunsAt e) (hg : g.instances = f.instances) :
    g.RunsAt e := by
  obtain ⟨i, hi, hruns⟩ := h
  exact ⟨i, by rw [get?, hg]; exact hi, hruns⟩

end Fleet

namespace Rehearsal

namespace ControlPlane

/-! ## Machines as they were told of -/

/-- A machine of the plane is in this region and state, or was before its last step. -/
def Was (p : ControlPlane) (id : InstanceId) (region : Region) (state : InstanceState) : Prop :=
  ∃ m, m.id = id ∧ m.region = region ∧ InstanceState.parse? m.state = some state
    ∧ (m ∈ p.machines ∨ advance m ∈ p.machines)

/-- No identifier is that of two machines. -/
def Distinct (p : ControlPlane) : Prop := (p.machines.map Machine.id).Nodup

theorem Distinct.eq {p : ControlPlane} (h : p.Distinct) {m n : Machine} (hm : m ∈ p.machines) (hn : n ∈ p.machines)
    (hid : m.id = n.id) : m = n := List.inj_on_of_nodup_map h hm hn hid

section Was

variable {p q : ControlPlane} {id : InstanceId} {region region' : Region} {state state' : InstanceState}

/-- Whatever was told, there is a machine of that identifier in that region. -/
theorem Was.machine (h : p.Was id region state) : ∃ m ∈ p.machines, m.id = id ∧ m.region = region := by
  obtain ⟨m, hid, hregion, -, hm | hm⟩ := h
  · exact ⟨m, hm, hid, hregion⟩
  · exact ⟨advance m, hm, by rw [id_advance, hid], by rw [region_advance, hregion]⟩

theorem Was.region_eq (hp : p.Distinct) (h : p.Was id region state) (h' : p.Was id region' state') :
    region = region' := by
  obtain ⟨m, hm, hid, rfl⟩ := h.machine
  obtain ⟨n, hn, hid', rfl⟩ := h'.machine
  rw [hp.eq hm hn (hid.trans hid'.symm)]

/-- Who was told to run runs: a machine that runs is not on its way. -/
theorem Was.running (h : p.Was id region .running) :
    ∃ m ∈ p.machines, m.id = id ∧ m.region = region ∧ InstanceState.parse? m.state = some .running := by
  obtain ⟨m, hid, hregion, hstate, hm⟩ := h
  rw [advance_of_running hstate, or_self] at hm
  exact ⟨m, hm, hid, hregion, hstate⟩

theorem Was.mono (h : p.Was id region state) (hpq : p.machines ⊆ q.machines) : q.Was id region state := by
  obtain ⟨m, hid, hregion, hstate, hm⟩ := h
  exact ⟨m, hid, hregion, hstate, hm.imp (fun h => hpq h) fun h => hpq h⟩

/-- One more step of machines on their way loses none: who was a step behind is not two behind. -/
theorem Was.update (h : p.Was id region state) (place : Region) (ids : List InstanceId) :
    (p.update place ids advance).Was id region state := by
  have hstep : ∀ m ∈ p.machines, m ∈ (p.update place ids advance).machines
      ∨ advance m ∈ (p.update place ids advance).machines := by
    intro m hm
    have := List.mem_map_of_mem (f := fun m => if asked place ids m then advance m else m) hm
    split at this
    · exact .inr this
    · exact .inl this
  obtain ⟨m, hid, hregion, hstate, hm | hm⟩ := h
  · exact ⟨m, hid, hregion, hstate, hstep m hm⟩
  · refine ⟨m, hid, hregion, hstate, .inr ?_⟩
    rcases hstep _ hm with h | h
    · exact h
    · rwa [advance_advance] at h

end Was

theorem ids_update (p : ControlPlane) (region : Region) (ids : List InstanceId) :
    (p.update region ids advance).machines.map Machine.id = p.machines.map Machine.id := by
  simp only [update, List.map_map]
  refine List.map_congr_left fun m _ => ?_
  by_cases h : asked region ids m = true <;> simp [h]

theorem region_of_asked {region : Region} {ids : List InstanceId} {m : Machine} (h : asked region ids m = true) :
    m.region = region := by
  simp only [asked, Bool.and_eq_true, beq_iff_eq] at h
  exact h.1

/-- A group of another region does not ask for the machine. -/
theorem asked_of_ne_region {region : Region} {m : Machine} (h : m.region ≠ region) (ids : List InstanceId) :
    asked region ids m = false :=
  Bool.eq_false_iff.mpr fun hasked => h (region_of_asked hasked)

theorem ids_asked_nodup {p : ControlPlane} (hp : p.Distinct) (group : Group) :
    (((p.machines.filter (asked group.1 group.2)).map record).map InstanceRecord.id).Nodup := by
  rw [List.map_map]
  exact hp.sublist ((List.filter_sublist).map Machine.id)

/-- What neither moves nor launches instances either describes some or leaves the machines alone. -/
theorem machines_carryOut (p : ControlPlane) {call : CloudCall} (hmoves : (Request.cloud call).moves = false)
    (hcommits : (Request.cloud call).commits = false) : (p.carryOut call).2.machines = p.machines
      ∨ ∃ region ids, (p.carryOut call).2 = p.update region ids advance := by
  cases call with
  | describeInstances region ids => exact .inr ⟨region, ids, rfl⟩
  | transition => cases hmoves
  | launch => cases hcommits
  | _ => exact .inl rfl

end ControlPlane

/-! ## What a plane keeps while it plays -/

/-- Neither a call that moves instances nor one that launches some. -/
def Calm (r : Request) : Prop := r.moves = false ∧ r.commits = false

/-- What calls keep that neither move nor launch instances is kept where there are no others. -/
theorem plays_keeps {P : ControlPlane → Prop} (hP : ∀ p call, Calm (.cloud call) → P p → P (p.carryOut call).2)
    {xs : List ((r : Request) × r.Reply)} (hxs : ∀ x ∈ xs, Calm x.1) {p q : ControlPlane} (hp : p.Willing) (h : P p)
    (hplays : Plays p xs q) : q.Willing ∧ P q := by
  induction xs generalizing p with
  | nil => exact hplays ▸ ⟨hp, h⟩
  | cons x xs ih =>
    have hrest : ∀ y ∈ xs, Calm y.1 := fun y hy => hxs y (List.mem_cons_of_mem _ hy)
    cases hx : x.1.calls with
    | false => exact ih hrest hp h ((plays_cons_of_not_calls hx).mp hplays)
    | true =>
      obtain ⟨r, reply⟩ := x
      cases r with
      | cloud call =>
        have hcalm : Calm (.cloud call) := hxs _ List.mem_cons_self
        exact ih hrest (hp.answer call) (hp.of_carried h (hP p call hcalm h)) hplays.2
      | _ => cases hx

theorem calm_exchanges (a : Fleet.Attempt) : ∀ x ∈ a.exchanges, Calm x.1 := by
  intro x hx
  cases a <;> simp only [Fleet.Attempt.exchanges, List.mem_cons, List.not_mem_nil, or_false] at hx <;>
    grind [Calm, Request.moves, Request.commits]

theorem calm_probesOf {c : FleetConfig} {candidates : List (InstanceId × String)} {connections : List Connection} :
    ∀ x ∈ Fleet.probesOf c candidates connections, Calm x.1 := by
  intro x hx
  obtain ⟨candidate, -, heq⟩ := Fleet.exists_of_mem_probesOf hx
  rw [heq]
  exact ⟨rfl, rfl⟩

theorem calm_attempts (attempts : List Fleet.Attempt) :
    ∀ x ∈ attempts.flatMap Fleet.Attempt.exchanges, Calm x.1 := by
  intro x hx
  obtain ⟨a, -, hxa⟩ := List.mem_flatMap.mp hx
  exact calm_exchanges a x hxa

/-! ## Accord -/

/-- Every instance of the registry is as a machine of the plane is, or was before its last step. -/
structure Accords (f : Fleet) (p : ControlPlane) : Prop where
  distinct : p.Distinct
  ids_nodup : (f.instances.map Instance.id).Nodup
  told : ∀ i ∈ f.instances, p.Was i.id i.region i.state

namespace Accords

variable {f g : Fleet} {p q : ControlPlane}

/-- Nobody was told of anything yet. -/
theorem empty (hp : p.Distinct) : Accords {} p := ⟨hp, by simp, by simp⟩

theorem congr (h : Accords f p) (hg : g.instances = f.instances) : Accords g p :=
  ⟨h.distinct, hg ▸ h.ids_nodup, hg ▸ h.told⟩

/-- The plane moves on by itself. -/
theorem carryOut (h : Accords f p) {call : CloudCall} (hcalm : Calm (.cloud call)) : Accords f (p.carryOut call).2 := by
  rcases machines_carryOut p hcalm.1 hcalm.2 with hsame | ⟨region, ids, hupdate⟩
  · refine ⟨?_, h.ids_nodup, fun i hi => (h.told i hi).mono fun _ hm => hsame ▸ hm⟩
    rw [Distinct, hsame]
    exact h.distinct
  · rw [hupdate]
    refine ⟨?_, h.ids_nodup, fun i hi => (h.told i hi).update region ids⟩
    rw [Distinct, ids_update]
    exact h.distinct

/-- Whatever is asked that neither moves nor launches instances keeps the accord. -/
theorem plays (h : Accords f p) (hp : p.Willing) {xs : List ((r : Request) × r.Reply)} (hxs : ∀ x ∈ xs, Calm x.1)
    (hplays : Plays p xs q) : q.Willing ∧ Accords f q :=
  plays_keeps (P := Accords f) (fun _ _ hcalm hacc => hacc.carryOut hcalm) hxs hp h hplays

/-- Sightings of machines keep the accord. -/
theorem seeAll (h : Accords f p) {xs : List (Region × Observation)} (hn : (xs.map fun x => x.2.record.id).Nodup)
    (hxs : ∀ x ∈ xs, p.Was x.2.record.id x.1 x.2.state) : Accords (f.seeAll xs) p := by
  have hids := Fleet.ids_nodup_seeAll h.ids_nodup xs
  refine ⟨h.distinct, hids, fun i hi => ?_⟩
  have hget := Fleet.get?_of_mem hids hi
  by_cases hseen : ∃ x ∈ xs, x.2.record.id = i.id
  · obtain ⟨x, hx, hid⟩ := hseen
    have hwas := hxs x hx
    rw [← hid, Fleet.get?_seeAll_of_sighted hn hx, Option.some.injEq] at hget
    have hstate : i.state = x.2.state := by rw [← hget]; rfl
    have hregion : i.region = x.1 := by
      rw [← hget, Instance.region_load]
      cases hold : f.get? x.2.record.id with
      | none => rfl
      | some j =>
        obtain ⟨hj, hjid⟩ := Fleet.mem_of_get? hold
        exact (h.told j hj).region_eq h.distinct (hjid ▸ hwas)
    rw [hstate, hregion, ← hid]
    exact hwas
  · rw [Fleet.get?_seeAll_of_absent fun x hx he => hseen ⟨x, hx, he.symm⟩] at hget
    exact h.told i (Fleet.mem_of_get? hget).1

/-- Confirmations are not about what the provider tells. -/
theorem confirmEach (h : Accords f p) (ids : List InstanceId) : Accords (f.confirmEach ids) p := by
  refine ⟨h.distinct, ?_, fun i hi => ?_⟩
  · have hids := congrArg (List.map Prod.fst) (Fleet.entries_confirmEach f ids)
    rw [← Fleet.ids_eq_entries, ← Fleet.ids_eq_entries] at hids
    exact hids ▸ h.ids_nodup
  · obtain ⟨j, hj, rfl⟩ := List.mem_map.mp hi
    obtain ⟨b, hb⟩ := Fleet.confirmIf_eq ids j
    have := h.told j hj
    show p.Was (Fleet.confirmIf ids j).id (Fleet.confirmIf ids j).region (Fleet.confirmIf ids j).state
    rwa [hb]

end Accords

/-! ## Descriptions -/

section Descriptions

variable {f : Fleet} {p q : ControlPlane} {a : Fleet.Attempt}

/-- A willing plane describes the machines of a group as they are, and moves them on, if it knows the region. -/
theorem Plays.attempt (hp : p.Willing) (h : Plays p a.exchanges q) :
    (a.group.1 ∈ p.regions ∧ q = p.update a.group.1 a.group.2 advance ∧ ∃ statuses,
        a = .described a.group ((p.machines.filter (asked a.group.1 a.group.2)).map record) statuses)
      ∨ (a.group.1 ∉ p.regions ∧ q = p ∧ a.sightings = []) := by
  by_cases hregion : a.group.1 ∈ p.regions
  · refine .inl ⟨hregion, ?_⟩
    have hlisting : ∀ group : Group, group.1 ∈ p.regions → p.answer (.describeInstances group.1 group.2)
        = (.ok ((p.machines.filter (asked group.1 group.2)).map record), p.update group.1 group.2 advance) :=
      fun group hgroup => hp.answer_known hgroup rfl
    have hhealth : ∀ group : Group, group.1 ∈ p.regions → ∃ statuses,
        (p.update group.1 group.2 advance).answer (.describeStatuses group.1 group.2)
          = (.ok statuses, p.update group.1 group.2 advance) :=
      fun group hgroup => ⟨_, (hp.carryOut (.describeInstances group.1 group.2)).answer_known hgroup rfl⟩
    cases a with
    | unlisted group e =>
      have hanswer := h.1
      rw [hlisting group hregion] at hanswer
      cases hanswer
    | unchecked group records e =>
      obtain ⟨statuses, hstatuses⟩ := hhealth group hregion
      have hanswer := h.2.1
      rw [hlisting group hregion, hstatuses] at hanswer
      cases hanswer
    | described group records statuses =>
      obtain ⟨_, hstatuses⟩ := hhealth group hregion
      obtain ⟨hanswer, -, hlast⟩ := h
      rw [hlisting group hregion] at hanswer hlast
      rw [hstatuses] at hlast
      cases hanswer
      exact ⟨hlast.symm, statuses, rfl⟩
  · refine .inr ⟨hregion, ?_⟩
    have hlisting : ∀ group : Group, group.1 ∉ p.regions → p.answer (.describeInstances group.1 group.2)
        = (.error (.unknownRegion group.1), p) := fun group hgroup => hp.answer_unknown hgroup
    cases a with
    | unlisted group e =>
      have hlast := h.2
      rw [hlisting group hregion] at hlast
      exact ⟨hlast.symm, rfl⟩
    | unchecked group records e | described group records statuses =>
      have hanswer := h.1
      rw [hlisting group hregion] at hanswer
      cases hanswer

/-- The machines of a group that were seen: each as it was, in the region of the group. -/
theorem of_mem_sightings (hp : p.Distinct) (group : Group) (statuses : List StatusRecord) {x : Region × Observation}
    (hx : x ∈ (Fleet.Attempt.described group ((p.machines.filter (asked group.1 group.2)).map record)
      statuses).sightings) :
    ∃ m ∈ p.machines, asked group.1 group.2 m = true ∧ x.1 = m.region ∧ x.2.record = record m
      ∧ InstanceState.parse? m.state = some x.2.state := by
  rw [Fleet.sightings_described group (ids_asked_nodup hp group)] at hx
  obtain ⟨r, hr, hsome⟩ := List.mem_filterMap.mp hx
  obtain ⟨m, hm, rfl⟩ := List.mem_map.mp hr
  obtain ⟨hm, hasked⟩ := List.mem_filter.mp hm
  obtain ⟨state, hstate, rfl⟩ := Option.map_eq_some_iff.mp hsome
  exact ⟨m, hm, hasked, (region_of_asked hasked).symm, rfl, hstate⟩

theorem mem_sightings (hp : p.Distinct) {group : Group} (statuses : List StatusRecord) {m : Machine}
    (hm : m ∈ p.machines) (hasked : asked group.1 group.2 m = true) {state : InstanceState}
    (hstate : InstanceState.parse? m.state = some state) :
    ∃ status, (group.1, ⟨record m, state, status⟩) ∈ (Fleet.Attempt.described group
      ((p.machines.filter (asked group.1 group.2)).map record) statuses).sightings := by
  rw [Fleet.sightings_described group (ids_asked_nodup hp group)]
  refine ⟨(statuses.filter fun s => s.id == m.id).getLast?, List.mem_filterMap.mpr ⟨record m, ?_, ?_⟩⟩
  · exact List.mem_map_of_mem (List.mem_filter.mpr ⟨hm, hasked⟩)
  · rw [show (record m).state = m.state from rfl, hstate]
    rfl

/-- No machine is seen twice. -/
theorem sightings_nodup (hp : p.Distinct) (group : Group) (statuses : List StatusRecord) :
    ((Fleet.Attempt.described group ((p.machines.filter (asked group.1 group.2)).map record)
      statuses).sightings.map fun x => x.2.record.id).Nodup := by
  have hn := ids_asked_nodup hp group
  rw [Fleet.sightings_described group hn, List.Nodup, List.pairwise_map, List.pairwise_filterMap]
  refine (List.pairwise_map.mp hn).imp fun {r r'} hne x hx y hy => ?_
  obtain ⟨-, -, rfl⟩ := Option.map_eq_some_iff.mp hx
  obtain ⟨-, -, rfl⟩ := Option.map_eq_some_iff.mp hy
  exact hne

/-- A description keeps the accord, and who ran runs. -/
theorem Accords.learn_one (h : Accords f p) (hp : p.Willing) (hplays : Plays p a.exchanges q) :
    Accords (f.learn [a]) q ∧ ∀ e, f.RunsAt e → (f.learn [a]).RunsAt e := by
  have hq : Accords f q := (h.plays hp (calm_exchanges a) hplays).2
  have hlearn : f.learn [a] = f.seeAll a.sightings := by rw [Fleet.learn, List.flatMap_singleton]
  rw [hlearn]
  rcases hplays.attempt hp with ⟨-, rfl, statuses, ha⟩ | ⟨-, -, hnone⟩
  · have hseen := sightings_nodup h.distinct a.group statuses
    have hof := fun x => of_mem_sightings (x := x) h.distinct a.group statuses
    rw [← ha] at hseen hof
    refine ⟨hq.seeAll hseen fun x hx => ?_, ?_⟩
    · obtain ⟨m, hm, -, hregion, hrecord, hstate⟩ := hof x hx
      have hwas : p.Was x.2.record.id x.1 x.2.state := ⟨m, by rw [hrecord]; rfl, hregion.symm, hstate, .inl hm⟩
      exact hwas.update _ _
    · rintro e ⟨i, hi, hregion, hruns⟩
      by_cases hsighted : ∃ x ∈ a.sightings, x.2.record.id = e.1
      · obtain ⟨x, hx, hid⟩ := hsighted
        obtain ⟨m, hm, -, -, hrecord, hstate⟩ := hof x hx
        -- the machine of an instance that runs is the one that was seen, and it was seen running
        obtain ⟨hmem, hiid⟩ := Fleet.mem_of_get? hi
        have htold := h.told i hmem
        rw [hruns] at htold
        obtain ⟨n, hn, hnid, -, hnstate⟩ := htold.running
        have hmid : m.id = n.id := by rw [hnid, hiid, ← hid, hrecord]; rfl
        rw [h.distinct.eq hm hn hmid, hnstate, Option.some.injEq] at hstate
        have hget := Fleet.get?_seeAll_of_sighted (f := f) hseen hx
        rw [hid, hi, Option.getD_some] at hget
        exact ⟨_, hget, hregion, hstate.symm⟩
      · refine ⟨i, ?_, hregion, hruns⟩
        rw [Fleet.get?_seeAll_of_absent fun x hx he => hsighted ⟨x, hx, he.symm⟩]
        exact hi
  · rw [hnone]
    exact ⟨hq, fun _ he => he⟩

/-- Descriptions keep the accord, and who ran runs. -/
theorem Accords.learn {attempts : List Fleet.Attempt} (h : Accords f p) (hp : p.Willing)
    (hplays : Plays p (attempts.flatMap Fleet.Attempt.exchanges) q) :
    q.Willing ∧ Accords (f.learn attempts) q ∧ ∀ e, f.RunsAt e → (f.learn attempts).RunsAt e := by
  induction attempts generalizing f p with
  | nil => exact hplays ▸ ⟨hp, h, fun _ he => he⟩
  | cons a attempts ih =>
    rw [List.flatMap_cons] at hplays
    obtain ⟨r, hfirst, hrest⟩ := plays_append.mp hplays
    have hr := (h.plays hp (calm_exchanges a) hfirst).1
    obtain ⟨hone, hruns⟩ := h.learn_one hp hfirst
    obtain ⟨hq, hall, hruns'⟩ := ih hone hr hrest
    have hlearn : f.learn (a :: attempts) = (f.learn [a]).learn attempts := Fleet.learn_append f [a] attempts
    rw [hlearn]
    exact ⟨hq, hall, fun e he => hruns' e (hruns e he)⟩

end Descriptions

end Rehearsal

end CloudFleet
