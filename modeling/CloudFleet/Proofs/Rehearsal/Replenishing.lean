import CloudFleet.Proofs.Fleet.Provisioning
import CloudFleet.Proofs.Rehearsal.Convergence
import Mathlib.Data.List.Perm.Subperm

/-!
# Creating instances a second time

A willing control plane gives each new machine the next name. If no machine has a name that is still to be given
(`ControlPlane.Unclaimed`), those that are launched are new to the registry as well, so each of them adds one entry in
the region where it was launched (`Stocked.launch`). Refreshing, waiting and probing keep what is known, and whoever
runs goes on running (`observant_stocked`).

Once creating instances from a plan has returned, all images are known, and what was launched covers what was missing
(`create_supplies`), so that as many run in each region as the plan counts (`Supplied.provides`). Nothing is missing
then, and creating instances again only says so (`run_create_provided`).

Main statement, for every plan and every willing control plane: `create_again_changes_nothing`.
-/

set_option autoImplicit false

namespace CloudFleet

variable {σ : Type}

open Rehearsal Rehearsal.ControlPlane

namespace Rehearsal

namespace ControlPlane

/-! ## Names of new machines -/

/-- The name of the machine that is launched as the `n`th. -/
def newName (n : Nat) : InstanceId := s!"i-new-{n}"

theorem newName_injective : Function.Injective newName := by
  intro m n h
  have hdigits : m.repr = n.repr := by simpa [newName, toString] using h
  have hread := congrArg (fun text : String => Nat.ofDigitChars 10 text.toList 0) hdigits
  simpa only [Nat.toList_repr, Nat.ofDigitChars_ten_toDigits] using hread

/-- No machine has a name that is still to be given. -/
def Unclaimed (p : ControlPlane) : Prop := ∀ m ∈ p.machines, ∀ n, p.launched < n → m.id ≠ newName n

theorem launched_carryOut (p : ControlPlane) {call : CloudCall} (hcommits : (Request.cloud call).commits = false) :
    (p.carryOut call).2.launched = p.launched := by
  cases call with
  | launch => cases hcommits
  | transition kind region ids dryRun => cases kind <;> rfl
  | _ => rfl

theorem Unclaimed.carryOut {p : ControlPlane} (h : p.Unclaimed) {call : CloudCall} (hcalm : Calm (.cloud call)) :
    (p.carryOut call).2.Unclaimed := by
  intro m hm n hn
  rw [launched_carryOut p hcalm.2] at hn
  rcases machines_carryOut p hcalm.1 hcalm.2 with hsame | ⟨region, ids, hupdate⟩
  · exact h m (hsame ▸ hm) n hn
  · rw [hupdate] at hm
    have hid : m.id ∈ p.machines.map Machine.id := ids_update p region ids ▸ List.mem_map_of_mem hm
    obtain ⟨m', hm', hid⟩ := List.mem_map.mp hid
    exact hid ▸ h m' hm' n hn

section NewMachines

variable {region : Region} {launched count : Nat} {m : Machine}

theorem of_mem_newMachines (hm : m ∈ newMachines region launched count) : m.region = region ∧ m.state = "pending"
    ∧ ∃ n, launched < n ∧ n ≤ launched + count ∧ m.id = newName n := by
  obtain ⟨i, hi, rfl⟩ := List.mem_map.mp hm
  have hi := List.mem_range.mp hi
  exact ⟨rfl, rfl, launched + i + 1, by omega, by omega, rfl⟩

theorem ids_newMachines_nodup (region : Region) (launched count : Nat) :
    ((newMachines region launched count).map Machine.id).Nodup := by
  rw [newMachines, List.map_map]
  refine List.Nodup.map (fun i j hij => ?_) List.nodup_range
  have hsame := newName_injective hij
  omega

/-- The sightings of machines that were launched. -/
def sightingsOf (region : Region) (new : List Machine) : List (Region × Observation) :=
  new.map fun m => (region, ⟨record m, .pending, none⟩)

theorem ids_sightingsOf_nodup (region : Region) (launched count : Nat) :
    ((sightingsOf region (newMachines region launched count)).map fun x => x.2.record.id).Nodup := by
  rw [sightingsOf, List.map_map]
  exact ids_newMachines_nodup region launched count

end NewMachines

/-- What is launched is not there yet. -/
theorem Unclaimed.new {p : ControlPlane} (h : p.Unclaimed) {region : Region} {count : Nat} {m n : Machine}
    (hm : m ∈ p.machines) (hn : n ∈ newMachines region p.launched count) : m.id ≠ n.id := by
  obtain ⟨-, -, k, hk, -, hid⟩ := of_mem_newMachines hn
  exact hid ▸ h m hm k hk

theorem Unclaimed.launch {p : ControlPlane} (h : p.Unclaimed) (region : Region) (request : LaunchRequest)
    (dryRun : Bool) : (p.carryOut (.launch region request dryRun)).2.Unclaimed := by
  intro m hm n hn
  have hn : p.launched + request.count < n := hn
  rcases List.mem_append.mp hm with hm | hm
  · exact h m hm n (by omega)
  · obtain ⟨-, -, k, -, hk, hid⟩ := of_mem_newMachines hm
    intro hname
    have hsame := newName_injective (hid.symm.trans hname)
    omega

theorem Distinct.launch {p : ControlPlane} (h : p.Distinct) (hunclaimed : p.Unclaimed) (region : Region)
    (request : LaunchRequest) (dryRun : Bool) : (p.carryOut (.launch region request dryRun)).2.Distinct := by
  show ((p.machines ++ newMachines region p.launched request.count).map Machine.id).Nodup
  rw [List.map_append]
  refine List.nodup_append.mpr ⟨h, ids_newMachines_nodup _ _ _, fun id hid other hother => ?_⟩
  obtain ⟨m, hm, rfl⟩ := List.mem_map.mp hid
  obtain ⟨n, hn, rfl⟩ := List.mem_map.mp hother
  exact hunclaimed.new hm hn

end ControlPlane

/-! ## What is known while instances are created -/

/-- The plane is willing and can name new machines, the registry is in accord with it, and these instances run. -/
structure Stocked (awake : List (InstanceId × Region)) (f : Fleet) (p : ControlPlane) : Prop where
  willing : p.Willing
  unclaimed : p.Unclaimed
  accords : Accords f p
  awake : ∀ e ∈ awake, f.RunsAt e

namespace Stocked

variable {awake : List (InstanceId × Region)} {f g : Fleet} {p q : ControlPlane}

theorem congr (h : Stocked awake f p) (hg : g.instances = f.instances) : Stocked awake g p :=
  ⟨h.willing, h.unclaimed, h.accords.congr hg, fun e he => (h.awake e he).congr hg⟩

/-- Whatever is asked that neither moves nor launches instances keeps it. -/
theorem plays (h : Stocked awake f p) {xs : List ((r : Request) × r.Reply)} (hxs : ∀ x ∈ xs, Calm x.1)
    (hplays : Plays p xs q) : Stocked awake f q := by
  obtain ⟨hq, hunclaimed, haccords⟩ := plays_keeps (P := fun q => q.Unclaimed ∧ Accords f q)
    (fun _ _ hcalm hp => ⟨hp.1.carryOut hcalm, hp.2.carryOut hcalm⟩) hxs h.willing ⟨h.unclaimed, h.accords⟩ hplays
  exact ⟨hq, hunclaimed, haccords, h.awake⟩

theorem learn (h : Stocked awake f p) {attempts : List Fleet.Attempt}
    (hplays : Plays p (attempts.flatMap Fleet.Attempt.exchanges) q) : Stocked awake (f.learn attempts) q := by
  obtain ⟨hq, haccords, hruns⟩ := h.accords.learn h.willing hplays
  exact ⟨hq, (h.plays (calm_attempts attempts) hplays).unclaimed, haccords, fun e he => hruns e (h.awake e he)⟩

theorem confirmEach (h : Stocked awake f p) (ids : List InstanceId) : Stocked awake (f.confirmEach ids) p := by
  refine ⟨h.willing, h.unclaimed, h.accords.confirmEach ids, fun e he => ?_⟩
  obtain ⟨i, hi, hregion, hruns⟩ := h.awake e he
  obtain ⟨b, hb⟩ := Fleet.confirmIf_eq ids i
  exact ⟨{ i with reachable := b }, by rw [Fleet.get?_confirmEach, hi, Option.map_some, hb], hregion, hruns⟩

/-- Who has run is listed. -/
theorem awake_subset (h : Stocked awake f p) : awake ⊆ f.entries := by
  intro e he
  obtain ⟨i, hi, hregion, -⟩ := h.awake e he
  obtain ⟨hi, hid⟩ := Fleet.mem_of_get? hi
  exact List.mem_map.mpr ⟨i, hi, Prod.ext hid hregion⟩

/-- Whoever is listed is a machine of the plane, and those that are launched are not. -/
theorem ne_new (h : Stocked awake f p) {i : Instance} (hi : i ∈ f.instances) {region : Region} {count : Nat}
    {m : Machine} (hm : m ∈ newMachines region p.launched count) : i.id ≠ m.id := by
  obtain ⟨n, hn, hid, -⟩ := (h.accords.told i hi).machine
  exact hid ▸ h.unclaimed.new hn hm

/-- Machines that are launched, and registered as they are answered, are new entries in their region. -/
theorem entries_launch (h : Stocked awake f p) (region : Region) (count : Nat) :
    (f.seeAll (sightingsOf region (newMachines region p.launched count))).entries
      = f.entries ++ (newMachines region p.launched count).map fun m => (m.id, region) := by
  have hunknown : ∀ x ∈ sightingsOf region (newMachines region p.launched count),
      (!f.knows x.2.record.id) = true := by
    intro x hx
    obtain ⟨m, hm, rfl⟩ := List.mem_map.mp hx
    cases hk : f.knows (record m).id with
    | false => simp
    | true =>
      obtain ⟨i, hi, hid⟩ := Fleet.knows_iff.mp hk
      exact absurd hid (h.ne_new hi hm)
  rw [Fleet.entries_seeAll_of_nodup (ids_sightingsOf_nodup region p.launched count),
    List.filter_eq_self.mpr hunknown, sightingsOf, List.map_map]
  rfl

/-- Launching machines, and registering them as they are answered, keeps what is known. -/
theorem launch (h : Stocked awake f p) (region : Region) (request : LaunchRequest) (dryRun : Bool) :
    Stocked awake (f.seeAll (sightingsOf region (newMachines region p.launched request.count)))
      (p.carryOut (.launch region request dryRun)).2 := by
  have hids := ids_sightingsOf_nodup region p.launched request.count
  have hmore : p.machines ⊆ (p.carryOut (.launch region request dryRun)).2.machines :=
    List.subset_append_left _ _
  have haccords : Accords f (p.carryOut (.launch region request dryRun)).2 :=
    ⟨h.accords.distinct.launch h.unclaimed region request dryRun, h.accords.ids_nodup,
      fun i hi => (h.accords.told i hi).mono hmore⟩
  refine ⟨h.willing.carryOut _, h.unclaimed.launch region request dryRun, haccords.seeAll hids fun x hx => ?_,
    fun e he => ?_⟩
  · obtain ⟨m, hm, rfl⟩ := List.mem_map.mp hx
    obtain ⟨hregion, hstate, -⟩ := of_mem_newMachines hm
    exact ⟨m, rfl, hregion, by rw [hstate]; exact InstanceState.parse?_name .pending, .inl (List.mem_append_right _ hm)⟩
  · obtain ⟨i, hi, hruns⟩ := h.awake e he
    refine ⟨i, ?_, hruns⟩
    obtain ⟨hmem, hid⟩ := Fleet.mem_of_get? hi
    rw [← hi]
    refine Fleet.get?_seeAll_of_absent fun x hx => ?_
    obtain ⟨m, hm, rfl⟩ := List.mem_map.mp hx
    exact hid ▸ h.ne_new hmem hm

end Stocked

section Observing

variable {w : World σ} {plane : σ → ControlPlane} (hw : Rehearses w plane)
include hw

/-- Refreshing, waiting, probing and looking images up keep what is known, and whoever runs goes on running. -/
theorem observant_stocked (awake : List (InstanceId × Region)) :
    Fleet.Observant w fun t : Run Fleet σ => Stocked awake t.own (plane t.world) where
  requested s r _ hcommits hmoves hs := by
    refine hs.plays (fun x hx => ?_) (hw.plays_ask r s)
    have hx : x ∈ exchanges [(.asked r (s.reply w r) : Happening Fleet)] := (List.mem_filter.mp hx).1
    have hx : x = ⟨r, s.reply w r⟩ := by simpa [exchanges] using hx
    rw [hx]
    exact ⟨hmoves, hcommits⟩
  described groups s hs := by
    rcases Fleet.run_describeGroups w groups s with ⟨attempts, t, hrun, htried⟩ | ⟨before, last, name, t, hrun, hhalted⟩
    · have hplays := hw.plays_of_questions hrun htried.asks.questions_eq
      rw [hrun, htried.own_eq]
      exact hs.learn hplays
    · have hplays := hw.plays_of_questions hrun hhalted.asks.questions_eq
      rw [List.flatMap_append] at hplays
      obtain ⟨q, hbefore, hlast⟩ := plays_append.mp hplays
      rw [hrun, hhalted.own_eq]
      exact (hs.learn hbefore).plays (calm_attempts [last]) hlast
  probed c groups s hs := by
    obtain ⟨connections, t, new, hrun, -, hasking, hasks⟩ := Fleet.run_probeRunning (ε := FleetError) w c groups s
    have hplays := hw.plays_of_questions hrun (hasks.trans (Fleet.asks_changeEach _ t)).questions_eq
    rw [hrun, Fleet.own_confirmAll, hasking.own]
    rw [List.append_nil] at hplays
    exact (hs.plays calm_probesOf hplays).confirmEach _
  imaged s region image hs := hs.congr rfl

end Observing

/-! ## Launching -/

/-- An answer in which all states are the same one is registered in full. -/
theorem run_register_state (w : World σ) (region : Region) {records : List InstanceRecord} {state : InstanceState}
    (h : ∀ r ∈ records, InstanceState.parse? r.state = some state) (s : Run Fleet σ) :
    ∃ t, (Fleet.register region records).run w s = (.returned (records.map InstanceRecord.id), t)
      ∧ t.own = s.own.seeAll (records.map fun r => (region, ⟨r, state, none⟩)) ∧ Fleet.Asks s t [] := by
  induction records generalizing s with
  | nil => exact ⟨s, rfl, rfl, .refl s⟩
  | cons record records ih =>
    let o : Observation := ⟨record, state, none⟩
    have hone := Fleet.run_observe (ε := FleetError) w region o s
    obtain ⟨t, hrun, hown, hasks⟩ := ih (fun r hr => h r (List.mem_cons_of_mem _ hr))
      ((Fleet.listed w region o s).change (Fleet.Change.loaded record state none))
    refine ⟨t, ?_, ?_, ?_⟩
    · simp only [Fleet.register, h record List.mem_cons_self]
      rw [Program.run_andThen_of_returned hone, Program.run_andThen_of_returned hrun]
      rfl
    · rw [hown, Run.own_change, Fleet.own_listed]
      rfl
    · exact ((Fleet.asks_listed w region o s).trans (.change _ _)).trans hasks

/-- What launching in some groups added to a registry: the entries of the new machines, and if no region failed, as many
in each region as the groups ask for. -/
structure Added (groups : List (Region × Nat)) (found : List Failure × List InstanceId) (f g : Fleet)
    (new : List (InstanceId × Region)) : Prop where
  entries_eq : g.entries = f.entries ++ new
  ids_eq : found.2 = new.map Prod.fst
  counts : found.1 = [] → ∀ r, (new.filter fun e => e.2 = r).length = countIn r groups

/-- One more group, whose region has agreed. -/
theorem Added.cons {groups : List (Region × Nat)} {found : List Failure × List InstanceId} {f g h : Fleet}
    {new : List (InstanceId × Region)} {region : Region} {ids : List InstanceId}
    (hfirst : g.entries = f.entries ++ ids.map fun id => (id, region)) (hrest : Added groups found g h new) :
    Added ((region, ids.length) :: groups) (found.1, ids ++ found.2) f h ((ids.map fun id => (id, region)) ++ new) := by
  refine ⟨by rw [hrest.entries_eq, hfirst, List.append_assoc], ?_, fun hnone r => ?_⟩
  · rw [hrest.ids_eq, List.map_append, List.map_map]
    exact congrArg (· ++ _) (List.map_id' ids).symm
  · have hsame : ((ids.map fun id => (id, region)).filter fun e => e.2 = r).length
        = if region = r then ids.length else 0 := by
      by_cases hr : region = r <;> simp [hr, List.filter_map, Function.comp_def]
    rw [List.filter_append, List.length_append, hrest.counts hnone, hsame, countIn_cons]

section Creating

open Program (Ensures Keeps)

variable {w : World σ} {plane : σ → ControlPlane} (hw : Rehearses w plane) {awake : List (InstanceId × Region)}
  {s : Run Fleet σ}
include hw

/-- The plane is the same while nothing is called. -/
theorem Stocked.ask (h : Stocked awake s.own (plane s.world)) {r : Request} (hr : r.calls = false) :
    Stocked awake (s.ask w r).own (plane (s.ask w r).world) := by
  have hplane : plane (s.ask w r).world = plane s.world := hw.untouched r s.world hr
  rw [hplane]
  exact h

/-- A region that is not known launches nothing. -/
theorem Stocked.unknown (h : Stocked awake s.own (plane s.world)) {region : Region} (request : LaunchRequest)
    (dryRun : Bool) (hregion : region ∉ (plane s.world).regions) :
    s.reply w (.cloud (.launch region request dryRun)) = .error (.unknownRegion region)
      ∧ Stocked awake (s.ask w (.cloud (.launch region request dryRun))).own
        (plane (s.ask w (.cloud (.launch region request dryRun))).world) := by
  let call : CloudCall := .launch region request dryRun
  have hanswer : (plane s.world).answer call = (.error (.unknownRegion region), plane s.world) :=
    h.willing.answer_unknown hregion
  have hplane : plane (s.ask w (.cloud call)).world = plane s.world :=
    (hw.carried call s.world).trans (congrArg Prod.snd hanswer)
  refine ⟨(hw.answered call s.world).trans (congrArg Prod.fst hanswer), ?_⟩
  rw [hplane]
  exact h

/-- A region that is known launches what it is asked for, and all of it is registered. -/
theorem run_register_launched (h : Stocked awake s.own (plane s.world)) {region : Region}
    (request : LaunchRequest) (hregion : region ∈ (plane s.world).regions) :
    let ids := (newMachines region (plane s.world).launched request.count).map Machine.id
    ∃ records t, s.reply w (.cloud (.launch region request false)) = .ok records
      ∧ (Fleet.register region records).run w ((s.ask w (.cloud (.launch region request false))).ask w
          (.announce (.launched region records.length))) = (.returned ids, t)
      ∧ Stocked awake t.own (plane t.world) ∧ t.own.entries = s.own.entries ++ ids.map fun id => (id, region) := by
  intro ids
  let call : CloudCall := .launch region request false
  let new := newMachines region (plane s.world).launched request.count
  have hcarried : (plane s.world).answer call = (.ok (new.map record), ((plane s.world).carryOut call).2) :=
    h.willing.answer_known hregion rfl
  have hreply : s.reply w (.cloud call) = .ok (new.map record) :=
    (hw.answered call s.world).trans (congrArg Prod.fst hcarried)
  let u := (s.ask w (.cloud call)).ask w (.announce (.launched region (new.map record).length))
  have hplane : plane u.world = ((plane s.world).carryOut call).2 :=
    (hw.untouched _ _ rfl).trans ((hw.carried call s.world).trans (congrArg Prod.snd hcarried))
  have hpending : ∀ r ∈ new.map record, InstanceState.parse? r.state = some .pending := by
    intro r hr
    obtain ⟨m, hm, rfl⟩ := List.mem_map.mp hr
    have hstate : (record m).state = InstanceState.pending.name := (of_mem_newMachines hm).2.1
    rw [hstate, InstanceState.parse?_name]
  obtain ⟨t, hrun, hown, hasks⟩ := run_register_state w region hpending u
  have hsame : plane u.world = plane t.world := hw.plays_of_questions hrun hasks.questions_eq
  have hids : (new.map record).map InstanceRecord.id = ids := by rw [List.map_map]; rfl
  rw [List.map_map] at hown
  refine ⟨_, t, hreply, hids ▸ hrun, ?_, ?_⟩
  · rw [hown, ← hsame, hplane]
    exact h.launch region request false
  · rw [hown, List.map_map]
    exact h.entries_launch region request.count

/-- Launching adds what is new to the registry, whatever the regions answer. -/
theorem launchGroups_adds (c : FleetConfig) (userData : String) (groups : List (Region × Nat))
    (hs : Stocked awake s.own (plane s.world)) :
    Ensures w (Fleet.launchGroups c userData false groups) s
      (fun found t => Stocked awake t.own (plane t.world) ∧ ∃ new, Added groups found s.own t.own new)
      fun _ _ => True := by
  induction groups generalizing s with
  | nil => exact .pure ⟨hs, [], by simp, rfl, fun _ r => rfl⟩
  | cons group groups ih =>
    obtain ⟨region, count⟩ := group
    refine .consult ?_
    have hrequest := (Fleet.launchRequest_ensures w c region count userData s).mono (fun _ _ h => h)
      fun _ _ _ => trivial
    refine hrequest.bind fun request t ht => ?_
    obtain ⟨rfl, rfl⟩ := ht
    refine (Fleet.launch_ensures w region request t).bind fun answer v hv => ?_
    obtain ⟨rfl, rfl⟩ := hv
    by_cases hregion : region ∈ (plane t.world).regions
    · obtain ⟨records, u, hreply, hregister, hstocked, hentries⟩ := run_register_launched hw hs request hregion
      rw [hreply]
      refine .ask ?_
      refine (Ensures.of_run (Q := fun ids x => ids = _ ∧ x = u) (F := fun _ _ => True) hregister ⟨rfl, rfl⟩).bind
        fun ids x hx => ?_
      obtain ⟨rfl, rfl⟩ := hx
      have hlength : ((newMachines region (plane t.world).launched request.count).map Machine.id).length
          = request.count := by simp [newMachines]
      refine (ih hstocked).bind fun found y ⟨hy, new, hnew⟩ => ?_
      have hadded := Added.cons hentries hnew
      rw [hlength] at hadded
      exact .pure ⟨hy, _, hadded⟩
    · obtain ⟨hreply, hcalled⟩ := hs.unknown hw request false hregion
      rw [hreply]
      refine .ask ((ih (hcalled.ask hw rfl)).bind fun found y ⟨hy, new, hnew⟩ => .pure ⟨hy, new, ?_⟩)
      exact ⟨hnew.entries_eq, hnew.ids_eq, fun hnone => by cases hnone⟩

/-! ## Creating -/

/-- All regions have an image. -/
def Imaged (regions : List Region) (t : Run Fleet σ) : Prop := ∀ region ∈ regions, (t.own.image? region).isSome = true

/-- The operator refused to launch instances. -/
def Refused (t : Run Fleet σ) : Prop := ∃ question, .asked (.confirm question) false ∈ t.history

omit hw in
theorem keeps_imaged {α : Type} (w : World σ) (regions : List Region) (p : FleetProgram α) :
    Keeps w (Imaged regions) p :=
  Program.keeps_of_steps (fun _ _ h => h) (fun c _ h region hr => Fleet.image?_replay (h region hr) [.changed c]) p

omit hw in
theorem keeps_entries {α : Type} (w : World σ) (listed : List (InstanceId × Region)) (p : FleetProgram α) :
    Keeps w (fun t => listed <+: t.own.entries) p :=
  Program.keeps_of_steps (fun _ _ h => h) (fun c _ h => h.trans (Fleet.entries_replay _ [.changed c])) p

/-- What creating instances from a plan comes to: whoever ran runs, and what was missing is new, as many in each region
as were missing there, and can be reached. -/
structure Supplied (plane : σ → ControlPlane) (awake : List (InstanceId × Region)) (plan : Plan) (f : Fleet)
    (launch : Launch) (t : Run Fleet σ) : Prop where
  stocked : Stocked awake t.own (plane t.world)
  imaged : Imaged plan.regions t
  launched : ∃ sub, launch = .launched sub
  supplied : ∃ old new, old ++ new <+: t.own.entries ∧ awake ⊆ old ∧ Fleet.Reachable (new.map Prod.fst) launch t
    ∧ ∀ r, (new.filter fun e => e.2 = r).length = countIn r (f.shortfall plan)

omit hw in
theorem awaitLaunched_launches (w : World σ) (c : FleetConfig) (patience : Nat) (ids : List InstanceId)
    (s : Run Fleet σ) : Ensures w (Fleet.awaitLaunched c patience false [] ids) s
      (fun launch _ => ∃ sub, launch = .launched sub) fun _ _ => True :=
  (Ensures.anyhow _).bind fun _ _ _ => (Ensures.anyhow _).bind fun _ _ _ => .consult <|
    (Ensures.anyhow _).bind fun _ _ _ => (Ensures.anyhow _).bind fun _ _ _ => .consult <|
      (Ensures.anyhow _).bind fun sub _ _ => .pure ⟨sub, rfl⟩

/-- Once the operator consents, what is missing is launched and awaited. -/
theorem launchShortfall_supplies (c : FleetConfig) (patience : Nat) (plan : Plan) (f : Fleet) (total : Nat)
    (hs : Stocked awake s.own (plane s.world)) (himaged : Imaged plan.regions s) :
    Ensures w (Fleet.launchShortfall c patience false (f.shortfall plan) total) s
      (fun launch t => launch = .aborted ∧ Refused t ∨ Supplied plane awake plan f launch t) fun _ _ => True := by
  have hboot := (Ensures.of_keeps ((observant_stocked hw awake).bootstrap c) hs).keeping
    (keeps_imaged w plan.regions _) himaged
  refine (hboot.mono (fun _ _ h => h) fun _ _ _ => trivial).bind fun userData t ⟨ht, himaged⟩ => .ask ?_
  have hasked := ht.ask hw (r := Fleet.launchQuestion total) rfl
  split
  · refine (((launchGroups_adds hw c userData _ hasked).keeping (keeps_imaged w plan.regions _) himaged).bind
      fun found u ⟨⟨hu, new, hnew⟩, himaged⟩ => ?_)
    obtain ⟨failures, ids⟩ := found
    cases failures with
    | cons failure failures => exact (Ensures.raise (F := fun _ _ => True) trivial).bind fun _ _ h => h
    | nil =>
      obtain rfl : ids = new.map Prod.fst := hnew.ids_eq
      have hknown : Fleet.Knows (new.map Prod.fst) u := by
        intro id hid
        obtain ⟨e, he, rfl⟩ := List.mem_map.mp hid
        exact Fleet.knows_iff_mem_entries.mpr ⟨e.2, hnew.entries_eq ▸ List.mem_append_right _ he⟩
      have hwait : Ensures w (Fleet.awaitLaunched c patience false [] (new.map Prod.fst)) u
          (fun launch t => Fleet.Reachable (new.map Prod.fst) launch t) fun _ _ => True :=
        (Fleet.awaitLaunched_ensures w c patience hknown).mono (fun _ _ h => h) fun _ _ _ => trivial
      have hlisted : t.own.entries ++ new <+: u.own.entries := by
        rw [hnew.entries_eq]
        exact List.prefix_rfl
      have hend := ((((hwait.and (awaitLaunched_launches w c patience _ u)).keeping
        ((observant_stocked hw awake).awaitLaunched c patience false [] _) hu).keeping
        (keeps_imaged w plan.regions _) himaged).keeping
        (keeps_entries w _ _) hlisted)
      refine hend.mono (fun launch x h => .inr ?_) fun _ _ _ => trivial
      obtain ⟨⟨⟨⟨hreachable, hlaunched⟩, hx⟩, himaged⟩, hentries⟩ := h
      refine ⟨hx, himaged, hlaunched, t.own.entries, new, hentries, ht.awake_subset, hreachable, fun r => ?_⟩
      rw [hnew.counts rfl, countIn_filter_pos]
  · rename_i hno
    have hrefused : t.reply w (Fleet.launchQuestion total) = false := Bool.eq_false_iff.mpr hno
    refine .ask (.pure (.inl ⟨rfl, s!"launch {total} instance(s)?", ?_⟩))
    rw [Run.history_ask, Run.history_ask, hrefused]
    exact List.mem_append_left _ (List.mem_append_right _ List.mem_cons_self)

/-- Creating instances looks images up, and then either finds that nothing is missing, or launches what is. -/
theorem create_supplies (c : FleetConfig) (patience : Nat) (plan : Plan)
    (hs : Stocked awake s.own (plane s.world)) :
    Ensures w (Fleet.create c patience plan false) s
      (fun launch t => launch = .aborted ∧ Refused t ∨ Supplied plane awake plan s.own launch t) fun _ _ => True := by
  have hselect := (Fleet.selectImages_ensures w c plan.regions s).keeping
    ((observant_stocked hw awake).selectImages c _) hs
  refine (hselect.mono (fun _ _ h => h) fun _ _ _ => trivial).bind fun failures t ⟨⟨hlooked, hfound⟩, ht⟩ => ?_
  refine ((Fleet.settle_ensures w failures t).mono (fun _ _ h => h) fun _ _ _ => trivial).bind fun _ u ⟨hu, hnone⟩ => ?_
  subst hu hnone
  refine .consult ?_
  rw [Fleet.shortfall_congr hlooked.instances]
  dsimp only
  split
  · exact .crash
  · rename_i total hsum
    refine .ask ?_
    have hplanned := ht.ask hw (r := .announce (.launchPlanned (s.own.shortfall plan) u.own.running.length total)) rfl
    split
    · rename_i hzero
      have hnothing : countAll (s.own.shortfall plan) = 0 := by
        rw [wordSum?_counts] at hsum
        split at hsum
        · exact (Option.some.inj hsum).trans hzero
        · cases hsum
      refine .pure (.inr ⟨hplanned, hfound rfl, ⟨[], rfl⟩, u.own.entries, [], by simp, ht.awake_subset,
        fun sub heq => ?_, fun r => ?_⟩)
      · cases heq
        exact ⟨rfl, by simp⟩
      · have hle := countIn_le_countAll r (s.own.shortfall plan)
        rw [hnothing] at hle
        exact (Nat.le_zero.mp hle).symm
    · exact launchShortfall_supplies hw c patience plan s.own total hplanned (hfound rfl)

end Creating

/-! ## How many run -/

/-- Different instances that run are counted among those that do. -/
theorem le_runningIn {f : Fleet} {es : List (InstanceId × Region)} (hn : (es.map Prod.fst).Nodup)
    (hes : ∀ e ∈ es, f.RunsAt e) (r : Region) : (es.filter fun e => e.2 = r).length ≤ f.runningIn r := by
  have hsub : (es.filter fun e => e.2 = r).map Prod.fst
      ⊆ (f.running.filter fun i => i.region == r).map Instance.id := by
    intro id hid
    obtain ⟨e, he, rfl⟩ := List.mem_map.mp hid
    obtain ⟨he, her⟩ := List.mem_filter.mp he
    obtain ⟨i, hi, hregion, hruns⟩ := hes e he
    obtain ⟨hi, hid⟩ := Fleet.mem_of_get? hi
    have hregion : i.region = r := hregion.trans (of_decide_eq_true her)
    exact List.mem_map.mpr ⟨i, List.mem_filter.mpr ⟨List.mem_filter.mpr ⟨hi, by simp [hruns]⟩, by simp [hregion]⟩, hid⟩
  have hle := (List.Nodup.subperm (hn.sublist (List.filter_sublist.map _)) hsub).length_le
  rwa [List.length_map, List.length_map] at hle

theorem runsAt_of_running {f : Fleet} (hn : (f.instances.map Instance.id).Nodup) :
    ∀ e ∈ f.running.map Fleet.entry, f.RunsAt e := by
  intro e he
  obtain ⟨i, hi, rfl⟩ := List.mem_map.mp he
  obtain ⟨hi, hruns⟩ := List.mem_filter.mp hi
  exact ⟨i, Fleet.get?_of_mem hn hi, rfl, beq_iff_eq.mp hruns⟩

/-- Only a region that is planned has a count. -/
theorem count_of_not_planned {plan : Plan} {r : Region} (h : r ∉ plan.regions) : plan.count r = 0 := by
  rw [Plan.count]
  cases hlookup : plan.counts.lookup r with
  | none => rfl
  | some n =>
    obtain ⟨before, after, hsplit, -⟩ := List.lookup_eq_some_iff.mp hlookup
    rcases Nat.eq_zero_or_pos n with hzero | hpos
    · exact hzero
    · refine absurd (List.mem_map.mpr ⟨(r, n), List.mem_filter.mpr ⟨?_, by simpa using hpos⟩, rfl⟩) h
      rw [hsplit]
      exact List.mem_append_right _ List.mem_cons_self

theorem runningIn_eq (f : Fleet) (r : Region) :
    ((f.running.map Fleet.entry).filter fun e => e.2 = r).length = f.runningIn r := by
  rw [List.filter_map, List.length_map]
  exact congrArg List.length (List.filter_congr fun i _ => by by_cases hi : i.region = r <;> simp [Fleet.entry, hi])

/-- Whoever is new and can be reached runs where it was launched. -/
theorem runsAt_of_reachable {t : Run Fleet σ} (ht : Fleet.Watched t) (hn : (t.own.entries.map Prod.fst).Nodup)
    {new : List (InstanceId × Region)} (hnew : new ⊆ t.own.entries) {sub : Subset}
    (hreachable : Fleet.Reachable (new.map Prod.fst) (.launched sub) t) : ∀ e ∈ new, t.own.RunsAt e := by
  obtain ⟨hids, hall⟩ := hreachable sub rfl
  intro e he
  have hid : e.1 ∈ sub.ids := hids ▸ List.mem_eraseDups.mpr (List.mem_map_of_mem he)
  obtain ⟨i, hi, hie⟩ := List.mem_map.mp hid
  obtain ⟨hget, hreach⟩ := hall i hi
  have hlisted : Fleet.entry i ∈ t.own.entries := List.mem_map_of_mem (Fleet.mem_of_get? hget).1
  have hentry : Fleet.entry i = e := List.inj_on_of_nodup_map hn hlisted (hnew he) hie
  exact ⟨i, hie ▸ hget, congrArg Prod.snd hentry, (ht.running hget hreach).1⟩

/-- As many run in each region as the plan counts: those that ran, and those that were missing. -/
theorem Supplied.provides {plane : σ → ControlPlane} {plan : Plan} {f : Fleet} {launch : Launch} {t : Run Fleet σ}
    (h : Supplied plane (f.running.map Fleet.entry) plan f launch t) (hn : (f.instances.map Instance.id).Nodup)
    (ht : Fleet.Watched t) (r : Region) : plan.count r ≤ t.own.runningIn r := by
  obtain ⟨sub, rfl⟩ := h.launched
  obtain ⟨old, new, hentries, hold, hreachable, hcounts⟩ := h.supplied
  have hdistinct : (t.own.entries.map Prod.fst).Nodup := Fleet.ids_eq_entries _ ▸ h.stocked.accords.ids_nodup
  have hboth : ((old ++ new).map Prod.fst).Nodup := hdistinct.sublist (hentries.sublist.map _)
  have hnew : ∀ e ∈ new, t.own.RunsAt e :=
    runsAt_of_reachable ht hdistinct (fun e he => hentries.subset (List.mem_append_right _ he)) hreachable
  -- those that ran are different from each other and from those that are new
  have hran : ((f.running.map Fleet.entry).map Prod.fst).Nodup := by
    rw [List.map_map]
    exact hn.sublist (List.filter_sublist.map _)
  have hapart : ((f.running.map Fleet.entry ++ new).map Prod.fst).Nodup := by
    rw [List.map_append] at hboth ⊢
    obtain ⟨-, hnewids, hdisjoint⟩ := List.nodup_append.mp hboth
    refine List.nodup_append.mpr ⟨hran, hnewids, fun id hid => hdisjoint id ?_⟩
    obtain ⟨e, he, rfl⟩ := List.mem_map.mp hid
    exact List.mem_map_of_mem (hold he)
  have hle := le_runningIn hapart (fun e he => (List.mem_append.mp he).elim (h.stocked.awake e) (hnew e)) r
  rw [List.filter_append, List.length_append, runningIn_eq, hcounts, Fleet.countIn_shortfall] at hle
  by_cases hr : r ∈ plan.regions
  · have hmissing := Nat.le_mul_of_pos_left (plan.count r - f.runningIn r) (List.count_pos_iff.mpr hr)
    omega
  · rw [count_of_not_planned hr]
    exact Nat.zero_le _

/-! ## Creating again -/

/-- Where all images are known, none is looked up. -/
theorem run_selectImages_imaged (w : World σ) (c : FleetConfig) {regions : List Region} {t : Run Fleet σ}
    (h : Imaged regions t) : (Fleet.selectImages c regions).run w t = (.returned [], t) := by
  induction regions with
  | nil => rfl
  | cons region regions ih =>
    have hfind : (Fleet.findImages c.imageOwner c.imageNamePattern [region] : FleetProgram _).run w t
        = (.returned (.ok []), t) := by
      rw [Fleet.findImages, Program.run_andThen_of_returned (Program.run_memory w t),
        if_pos (h region List.mem_cons_self)]
      rfl
    rw [Fleet.selectImages, Program.run_andThen_of_returned hfind]
    exact ih fun r hr => h r (List.mem_cons_of_mem _ hr)

/-- Where all images are known and as many run as the plan counts, it is only said that nothing is missing. -/
theorem run_create_provided (w : World σ) (c : FleetConfig) (patience : Nat) {plan : Plan} (dryRun : Bool)
    {t : Run Fleet σ} (himaged : Imaged plan.regions t) (hprovided : ∀ r, plan.count r ≤ t.own.runningIn r) :
    (Fleet.create c patience plan dryRun).run w t
      = (.returned (.launched []), t.ask w (Fleet.planned t.own plan)) := by
  have hnothing : countAll (t.own.shortfall plan) = 0 := by
    have hzero : ∀ regions : List Region,
        countAll (regions.map fun r => (r, plan.count r - t.own.runningIn r)) = 0 := by
      intro regions
      induction regions with
      | nil => rfl
      | cons r regions ih => rw [List.map_cons, countAll_cons, ih, Nat.sub_eq_zero_of_le (hprovided r)]
    exact hzero plan.regions
  have hsum : wordSum? ((t.own.shortfall plan).map Prod.snd) = some 0 := by
    rw [wordSum?_counts, hnothing]
    rfl
  rw [Fleet.create, Program.run_andThen_of_returned (run_selectImages_imaged w c himaged),
    Program.run_andThen_of_returned (Fleet.run_settle w [] t), Program.run_andThen_of_returned (Program.run_memory w t)]
  dsimp only
  rw [hsum]
  dsimp only
  rw [Program.run_andThen_of_returned (Program.run_request w _ t), if_pos rfl, Fleet.planned, hnothing]
  rfl

/-- On every willing control plane, whose machines have different names and none that is still to be given: once
everything was refreshed, and creating instances from a plan has returned without a refusal, they were launched; as many
run in each region as the plan counts; and creating them again asks nothing, changes nothing, and launches nobody. -/
theorem create_again_changes_nothing {w : World σ} {plane : σ → ControlPlane} (hw : Rehearses w plane) {world : σ}
    (hwilling : (plane world).Willing) (hdistinct : (plane world).Distinct) (hunclaimed : (plane world).Unclaimed)
    {c : FleetConfig} {s : Run Fleet σ}
    (hrefresh : (Fleet.refresh c .all).run w (Fleet.fresh world) = (.returned (), s)) {patience : Nat} {plan : Plan}
    {launch : Launch} {t : Run Fleet σ}
    (hcreate : (Fleet.create c patience plan false).run w s = (.returned launch, t)) (hconsent : ¬Refused t) :
    (∃ sub, launch = .launched sub)
      ∧ (∀ r, plan.count r ≤ t.own.runningIn r)
      ∧ ∀ patience dryRun, ∃ u, (Fleet.create c patience plan dryRun).run w t = (.returned (.launched []), u)
        ∧ u.own = t.own ∧ u.history = t.history ++ [.asked (Fleet.planned t.own plan) ()] := by
  have hfresh : Stocked [] (Fleet.fresh world).own (plane (Fleet.fresh world).world) :=
    ⟨hwilling, hunclaimed, .empty hdistinct, by simp⟩
  have hrefreshed := (observant_stocked hw []).refresh c .all _ hfresh
  have hwatched := (Fleet.stable_watched w).refresh c .all _ (Fleet.Watched.fresh world)
  rw [hrefresh] at hrefreshed hwatched
  have hn := hrefreshed.accords.ids_nodup
  have hs : Stocked (s.own.running.map Fleet.entry) s.own (plane s.world) :=
    { hrefreshed with awake := runsAt_of_running hn }
  have ht : Fleet.Watched t := by
    have hcreated := (Fleet.stable_watched w).create (fun _ _ hr hs => hs.ask w (Request.discovery?_of_commits hr)) c
      patience plan false s hwatched
    rwa [hcreate] at hcreated
  rcases (create_supplies hw c patience plan hs).of_returned hcreate with ⟨-, hrefused⟩ | hsupplied
  · exact absurd hrefused hconsent
  have hprovides := hsupplied.provides hn ht
  exact ⟨hsupplied.launched, hprovides, fun patience dryRun =>
    ⟨_, run_create_provided w c patience dryRun hsupplied.imaged hprovides, rfl, rfl⟩⟩

/-! ## A region that is planned twice -/

/-- The stage with images in both regions, and an operator who consents. -/
def suppliedStage : Stage Hosts :=
  { mixedStage with
    plane := { mixedStage.plane with images := [(paris, ⟨"ami-1", "2024"⟩), (virginia, ⟨"ami-2", "2024"⟩)] }
    consent := true }

/-- Two in the one region, once more one, and none in the other one. -/
def unevenPlan : Plan := ⟨[(paris, 2), (virginia, 0), (paris, 1)]⟩

/-- What is known after a refresh of everything. -/
def refreshedStage : Run Fleet (Stage Hosts) :=
  ((Fleet.refresh bothRegions .all).run Stage.world (Fleet.fresh suppliedStage)).2

/-- What creating the plan leads to. -/
def createdStage : Run Fleet (Stage Hosts) :=
  ((Fleet.create bothRegions 3 unevenPlan false).run Stage.world refreshedStage).2

/-- Where the operator consents, no program is refused. -/
theorem keeps_consenting {η α : Type} [Shell η] (p : FleetProgram α) :
    Program.Keeps Stage.world (fun t : Run Fleet (Stage η) => t.world.consent = true ∧ ¬Refused t) p := by
  refine Program.keeps_of_steps ?_ ?_ p
  · rintro r t ⟨hconsent, hnot⟩
    refine ⟨by cases r <;> exact hconsent, ?_⟩
    rintro ⟨question, hmem⟩
    rcases List.mem_append.mp hmem with hmem | hmem
    · exact hnot ⟨question, hmem⟩
    · have heq := List.mem_singleton.mp hmem
      injection heq with hr hreply
      subst hr
      have hrefused : false = t.world.consent := eq_of_heq hreply
      rw [hconsent] at hrefused
      cases hrefused
  · rintro c t ⟨hconsent, hnot⟩
    refine ⟨hconsent, ?_⟩
    rintro ⟨question, hmem⟩
    rcases List.mem_append.mp hmem with hmem | hmem
    · exact hnot ⟨question, hmem⟩
    · cases List.mem_singleton.mp hmem

theorem unclaimed_suppliedStage : suppliedStage.plane.Unclaimed := by
  -- the third character tells the names apart
  have hname : ∀ n, (newName n).toList[2]? = some 'n' := fun n => by simp [newName, toString]
  intro m hm n _ he
  have hid : m.id ∈ ["i-1", "i-2", "i-3"] := List.mem_map_of_mem hm
  have hthird := hname n
  rw [← he] at hthird
  rcases (by simpa using hid : m.id = "i-1" ∨ m.id = "i-2" ∨ m.id = "i-3") with h | h | h <;>
  · rw [h] at hthird
    revert hthird
    decide

theorem create_again_changes_nothing_planned_twice :
    ∃ launch, (Fleet.create bothRegions 3 unevenPlan false).run Stage.world refreshedStage
        = (.returned launch, createdStage)
      ∧ ¬Refused createdStage
      ∧ (∃ sub, launch = .launched sub)
      ∧ (∀ r, unevenPlan.count r ≤ createdStage.own.runningIn r)
      ∧ ∀ patience dryRun, ∃ u, (Fleet.create bothRegions patience unevenPlan dryRun).run Stage.world createdStage
          = (.returned (.launched []), u)
        ∧ u.own = createdStage.own
        ∧ u.history = createdStage.history ++ [.asked (Fleet.planned createdStage.own unevenPlan) ()] := by
  have hrefresh : (Fleet.refresh bothRegions .all).run Stage.world (Fleet.fresh suppliedStage)
      = (.returned (), refreshedStage) := Prod.ext rfl rfl
  have hcreate : ∃ launch, (Fleet.create bothRegions 3 unevenPlan false).run Stage.world refreshedStage
      = (.returned launch, createdStage) := ⟨_, Prod.ext rfl rfl⟩
  have hfresh : ¬Refused (Fleet.fresh suppliedStage) := by
    rintro ⟨question, hmem⟩
    cases hmem
  have hkept := keeps_consenting (Fleet.refresh bothRegions .all) (Fleet.fresh suppliedStage) ⟨rfl, hfresh⟩
  have hconsent : ¬Refused createdStage :=
    (keeps_consenting (Fleet.create bothRegions 3 unevenPlan false) refreshedStage hkept).2
  have hwilling : suppliedStage.plane.Willing := ⟨rfl, rfl, rfl⟩
  have hdistinct : suppliedStage.plane.Distinct := orderly_mixedStage.distinct
  obtain ⟨launch, hcreate⟩ := hcreate
  exact ⟨launch, hcreate, hconsent, create_again_changes_nothing rehearses_stage hwilling hdistinct
    unclaimed_suppliedStage hrefresh hcreate hconsent⟩

end Rehearsal

end CloudFleet
