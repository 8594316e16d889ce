import CloudFleet.Proofs.Fleet.Rebuilding
import CloudFleet.Proofs.Rehearsal.Playing

/-!
# Rebuilding groups on a control plane

What rebuilding the configured group does to a control plane on which any operations fail in any regions. A step that
is not refused changes one group (`Stands`), and leaves all others and everything else alone (`Spares`); so a rebuild
of a region in which no call fails leaves the group there once, with the configured ports (`stands_of_rebuilds`), and
what happens in one region is no matter of the others (`regions_are_rebuilt_apart`).
-/

set_option autoImplicit false

namespace CloudFleet.Rehearsal

open Fleet (GroupStep Takes Rebuilds Rebuild Rebuilt replacement refusal?)

namespace ControlPlane

/-! ## Calls where no answers are planned -/

/-- The call is refused: its region is not known, or its operation fails there. -/
def Refuses (p : ControlPlane) (call : CloudCall) : Prop :=
  call.region ∉ p.regions ∨ (call.region, call.operation) ∈ p.failing

/-- The call is no dry run, and no description of instances, of which there may be a limited number. -/
def Plain (call : CloudCall) : Prop := call.isDryRun = false ∧ isDescription call = false

theorem answer_of_refuses {p : ControlPlane} {call : CloudCall} (hcall : Plain call) (h : p.Refuses call) :
    ∃ e, p.answer call = (.error e, p) := by
  have haccept : p.accept call = if call.region ∈ p.regions then .ok p else .error (.unknownRegion call.region) := by
    by_cases hregion : call.region ∈ p.regions <;> simp [accept, hcall.2, hregion]
  unfold answer
  rw [haccept]
  by_cases hregion : call.region ∈ p.regions
  · have hfailing : (call.region, call.operation) ∈ p.failing := h.resolve_left (not_not_intro hregion)
    simp [hregion, hfailing]
  · simp [hregion]

theorem answer_of_not_refuses {p : ControlPlane} (hreplies : p.replies = []) {call : CloudCall} (hcall : Plain call)
    (h : ¬p.Refuses call) : p.answer call = (.ok (p.carryOut call).1, (p.carryOut call).2) := by
  obtain ⟨hregion, hfailing⟩ := not_or.mp h
  have haccept : p.accept call = .ok p := by simp [accept, hcall.2, Decidable.not_not.mp hregion]
  unfold answer
  rw [haccept]
  simp [hfailing, takeReply, hreplies, scripted, hcall.1]

theorem refuses_carryOut (p : ControlPlane) (call other : CloudCall) :
    (p.carryOut call).2.Refuses other ↔ p.Refuses other := by
  cases call with
  | transition kind region ids dryRun => cases kind <;> exact Iff.rfl
  | _ => exact Iff.rfl

theorem replies_carryOut (p : ControlPlane) (call : CloudCall) : (p.carryOut call).2.replies = p.replies := by
  cases call with
  | transition kind region ids dryRun => cases kind <;> rfl
  | _ => rfl

/-! ## What is left alone -/

/-- From one plane to another nothing changed but groups of these keys, and their rules. -/
structure Spares (keys : List (Region × String)) (p q : ControlPlane) : Prop where
  groups : (q.groups.filter fun g => g ∉ keys) = p.groups.filter fun g => g ∉ keys
  ingress : (q.ingress.filter fun i => (i.1, i.2.1) ∉ keys) = p.ingress.filter fun i => (i.1, i.2.1) ∉ keys
  rest : q = { p with groups := q.groups, ingress := q.ingress }

namespace Spares

variable {keys more : List (Region × String)} {p q r : ControlPlane}

theorem refl (keys : List (Region × String)) (p : ControlPlane) : Spares keys p p := ⟨rfl, rfl, rfl⟩

theorem trans (h : Spares keys p q) (hqr : Spares keys q r) : Spares keys p r := by
  refine ⟨hqr.groups.trans h.groups, hqr.ingress.trans h.ingress, ?_⟩
  refine hqr.rest.trans ?_
  rw [h.rest]

theorem mono (h : Spares keys p q) (hkeys : keys ⊆ more) : Spares more p q := by
  have hsub {α : Type} (key : α → Region × String) (xs : List α) :
      (xs.filter fun x => key x ∉ more) = (xs.filter fun x => key x ∉ keys).filter fun x => key x ∉ more := by
    rw [List.filter_filter]
    refine List.filter_congr fun x _ => ?_
    by_cases hx : key x ∈ more
    · simp [hx]
    · simp [hx, mt (@hkeys (key x)) hx]
  refine ⟨?_, ?_, h.rest⟩
  · rw [hsub (fun g => g) q.groups, hsub (fun g => g) p.groups, h.groups]
  · rw [hsub (fun i => (i.1, i.2.1)) q.ingress, hsub (fun i => (i.1, i.2.1)) p.ingress, h.ingress]

theorem replies_eq (h : Spares keys p q) : q.replies = p.replies := by rw [h.rest]

end Spares

/-! ## One group -/

/-- The ports that the rules of a group open. -/
def ports (p : ControlPlane) (region : Region) (name : String) : List UInt16 :=
  (p.ingress.filter fun i => (i.1, i.2.1) = (region, name)).map fun i => i.2.2

/-- The group is there so many times, and its rules open these ports. -/
structure Stands (p : ControlPlane) (region : Region) (name : String) (times : Nat) (ports : List UInt16) : Prop where
  times_eq : p.groups.count (region, name) = times
  ports_eq : p.ports region name = ports

/-- Unless the group is there, it has no rules. -/
def Sound (p : ControlPlane) (region : Region) (name : String) : Prop :=
  (region, name) ∉ p.groups → p.Stands region name 0 []

/-- The plane after a step. -/
def after (region : Region) (name : String) (p : ControlPlane) : GroupStep → ControlPlane
  | .delete => (p.carryOut (.deleteGroup region name)).2
  | .create description => (p.carryOut (.createGroup region name description)).2
  | .openPort port => (p.carryOut (.openPort region name port)).2

section Groups

variable {p q : ControlPlane} {region : Region} {name : String} {times : Nat} {opened : List UInt16}

/-- Membership in the filtered list, for a key that is kept. -/
theorem filter_of_kept {α : Type} {keys : List (Region × String)} (hkey : (region, name) ∉ keys)
    (key : α → Region × String) (xs : List α) :
    (xs.filter fun x => key x = (region, name)) =
      (xs.filter fun x => key x ∉ keys).filter fun x => key x = (region, name) := by
  rw [List.filter_filter]
  refine List.filter_congr fun x _ => ?_
  by_cases hx : key x = (region, name)
  · simp [hx, hkey]
  · simp [hx]

theorem count_eq_length_filter (groups : List (Region × String)) :
    groups.count (region, name) = (groups.filter fun g => g = (region, name)).length := by
  rw [List.count_eq_length_filter]
  exact congrArg List.length (List.filter_congr fun g _ => Bool.eq_iff_iff.mpr (by simp))

theorem Stands.of_spares {keys : List (Region × String)} (h : p.Stands region name times opened)
    (hspares : Spares keys p q) (hkey : (region, name) ∉ keys) : q.Stands region name times opened := by
  refine ⟨?_, ?_⟩
  · rw [← h.times_eq, count_eq_length_filter, count_eq_length_filter, filter_of_kept hkey (fun g => g) q.groups,
      filter_of_kept hkey (fun g => g) p.groups, hspares.groups]
  · rw [← h.ports_eq, ports, ports, filter_of_kept hkey (fun i => (i.1, i.2.1)) q.ingress,
      filter_of_kept hkey (fun i => (i.1, i.2.1)) p.ingress, hspares.ingress]

theorem Sound.of_spares {keys : List (Region × String)} (h : p.Sound region name) (hspares : Spares keys p q)
    (hkey : (region, name) ∉ keys) : q.Sound region name := by
  intro hnone
  refine (h fun hmem => hnone ?_).of_spares hspares hkey
  have hkept : (region, name) ∈ q.groups.filter fun g => g ∉ keys := by
    rw [hspares.groups]
    exact List.mem_filter.mpr ⟨hmem, by simpa using hkey⟩
  exact (List.mem_filter.mp hkept).1

/-- Where every rule is one of a group that is there, groups that are not there have no rules. -/
theorem sound_of_rules (h : ∀ i ∈ p.ingress, (i.1, i.2.1) ∈ p.groups) (region : Region) (name : String) :
    p.Sound region name := by
  intro habsent
  refine ⟨List.count_eq_zero.mpr habsent, List.map_eq_nil_iff.mpr (List.filter_eq_nil_iff.mpr fun i hi hkey => ?_)⟩
  exact habsent (of_decide_eq_true hkey ▸ h i hi)

theorem Stands.sound (h : p.Stands region name 1 opened) : p.Sound region name := by
  intro hnone
  have hcount := h.times_eq
  rw [List.count_eq_zero.mpr hnone] at hcount
  cases hcount

/-- What is deleted of a group is nothing of the others. -/
theorem filter_deleted {α : Type} (key : α → Region × String) (xs : List α) :
    ((xs.filter fun x => !((key x).1 == region && (key x).2 == name)).filter fun x => key x ∉ [(region, name)]) =
      xs.filter fun x => key x ∉ [(region, name)] := by
  rw [List.filter_filter]
  refine List.filter_congr fun x _ => ?_
  by_cases hx : key x = (region, name)
  · simp [hx]
  · have hother : ((key x).1 == region && (key x).2 == name) = false := by simpa [Prod.ext_iff] using hx
    simp [hx, hother]

theorem spares_after (step : GroupStep) : Spares [(region, name)] p (p.after region name step) := by
  cases step with
  | delete => exact ⟨filter_deleted (fun g => g) p.groups, filter_deleted (fun i => (i.1, i.2.1)) p.ingress, rfl⟩
  | create description => exact ⟨by simp [after, carryOut], rfl, rfl⟩
  | openPort port => exact ⟨rfl, by simp [after, carryOut], rfl⟩

theorem stands_after_delete : (p.after region name .delete).Stands region name 0 [] := by
  refine ⟨?_, ?_⟩
  · simp [after, carryOut, List.count_eq_zero]
  · simp [after, carryOut, ports]

theorem Stands.after_create (h : p.Stands region name times opened) (description : String) :
    (p.after region name (.create description)).Stands region name (times + 1) opened := by
  refine ⟨?_, h.ports_eq⟩
  have htimes := h.times_eq
  simp [after, carryOut, htimes]

/-- By induction on the ports, of which each is opened after those before it. -/
theorem Stands.after_openPorts (h : p.Stands region name times opened) (more : List UInt16) :
    ((more.map GroupStep.openPort).foldl (after region name) p).Stands region name times (opened ++ more) := by
  induction more generalizing p opened with
  | nil => simpa using h
  | cons port more ih =>
    have hone : (p.after region name (.openPort port)).Stands region name times (opened ++ [port]) := by
      refine ⟨h.times_eq, ?_⟩
      have hports := h.ports_eq
      rw [ports] at hports ⊢
      simp only [after, carryOut, List.filter_append, List.map_append, hports]
      simp
    simpa using ih hone

/-- Wherever the group has no rules without being there, the steps of a rebuild leave it there once, with the ports. -/
theorem Sound.after_replacement (c : FleetConfig) (h : p.Sound region c.securityGroup) {existing : List String}
    (hexisting : c.securityGroup ∈ existing ↔ (region, c.securityGroup) ∈ p.groups) :
    ((replacement c existing).foldl (after region c.securityGroup) p).Stands region c.securityGroup 1
      c.ingressPorts := by
  unfold replacement
  split
  · exact (stands_after_delete.after_create _).after_openPorts c.ingressPorts
  · rename_i hnone
    exact ((h (mt hexisting.mpr hnone)).after_create _).after_openPorts c.ingressPorts

end Groups

end ControlPlane

open ControlPlane (Plain Refuses Spares Sound Stands after)

/-! ## Playing a rebuild -/

section Playing

variable {p q : ControlPlane} {region : Region} {name : String} {xs : List ((r : Request) × r.Reply)}

/-- Either the plane carries a call out, or it refuses it and stays as it is. -/
theorem plays_call (hreplies : p.replies = []) {call : CloudCall} (hcall : Plain call)
    {answer : Except CloudError call.Reply} (h : Plays p (⟨.cloud call, answer⟩ :: xs) q) :
    (answer = .ok (p.carryOut call).1 ∧ ¬p.Refuses call ∧ Plays (p.carryOut call).2 xs q) ∨
      ((∃ e, answer = .error e) ∧ p.Refuses call ∧ Plays p xs q) := by
  obtain ⟨hanswer, hrest⟩ := h
  by_cases hrefuses : p.Refuses call
  · obtain ⟨e, hrefused⟩ := ControlPlane.answer_of_refuses hcall hrefuses
    rw [hrefused] at hanswer hrest
    exact .inr ⟨⟨e, hanswer.symm⟩, hrefuses, hrest⟩
  · rw [ControlPlane.answer_of_not_refuses hreplies hcall hrefuses] at hanswer hrest
    exact .inl ⟨hanswer.symm, hrefuses, hrest⟩

/-- A call fails exactly if the plane refuses it, which it does before the calls as after them. -/
theorem refused_iff (hplain : ∀ x ∈ xs, ∃ call, x.1 = .cloud call ∧ Plain call) (hreplies : p.replies = [])
    (h : Plays p xs q) (call : CloudCall) (reply : Except CloudError call.Reply) (hmem : ⟨.cloud call, reply⟩ ∈ xs) :
    (∃ e, reply = .error e) ↔ p.Refuses call := by
  induction xs generalizing p with
  | nil => cases hmem
  | cons x xs ih =>
    obtain ⟨request, answer⟩ := x
    obtain ⟨hhead, htail⟩ := List.forall_mem_cons.mp hplain
    obtain ⟨first, rfl, hfirst⟩ := hhead
    rcases plays_call hreplies hfirst h with ⟨hok, hcarried, hrest⟩ | ⟨herror, hrefused, hrest⟩
    · rcases List.mem_cons.mp hmem with heq | hmem
      · cases heq
        exact iff_of_false (fun ⟨e, he⟩ => by rw [he] at hok; cases hok) hcarried
      · rw [ih htail ((p.replies_carryOut first).trans hreplies) hrest hmem]
        exact p.refuses_carryOut first call
    · rcases List.mem_cons.mp hmem with heq | hmem
      · cases heq
        exact iff_of_true herror hrefused
      · exact ih htail hreplies hrest hmem

theorem plays_step (hreplies : p.replies = []) {step : GroupStep} {answer : Cloud.Answer Unit}
    (h : Plays p (step.exchange region name answer :: xs) q) :
    (answer = .ok () ∧ Plays (p.after region name step) xs q) ∨ ((∃ e, answer = .error e) ∧ Plays p xs q) := by
  cases step <;> exact (plays_call hreplies ⟨rfl, rfl⟩ h).imp (fun h => ⟨h.1, h.2.2⟩) fun h => ⟨h.1, h.2.2⟩

/-- Steps touch their group only, and all are carried out if none is refused. -/
theorem plays_takes {steps : List GroupStep} {result : Cloud.Answer Unit} (htakes : Takes region name steps result xs)
    (hreplies : p.replies = []) (h : Plays p xs q) :
    Spares [(region, name)] p q ∧ (result = .ok () → q = steps.foldl (after region name) p) := by
  induction htakes generalizing p with
  | done => exact ⟨h ▸ .refl _ p, fun _ => h.symm⟩
  | taken step htakes ih =>
    rcases plays_step hreplies h with ⟨-, hrest⟩ | ⟨⟨e, he⟩, -⟩
    · have hstep : Spares [(region, name)] p (p.after region name step) := ControlPlane.spares_after step
      obtain ⟨hspares, hdone⟩ := ih (hstep.replies_eq.trans hreplies) hrest
      exact ⟨hstep.trans hspares, hdone⟩
    · cases he
  | refused step steps e =>
    rcases plays_step hreplies h with ⟨hok, -⟩ | ⟨-, hrest⟩
    · cases hok
    · exact ⟨hrest ▸ .refl _ p, nofun⟩

/-- A rebuild touches the configured group of its region only. If no call fails, the group is there once then, with
the configured ports. -/
theorem plays_rebuilds {c : FleetConfig} {result : Cloud.Answer Unit} (hcourse : Rebuilds c region result xs)
    (hreplies : p.replies = []) (h : Plays p xs q) :
    Spares [(region, c.securityGroup)] p q ∧
      (result = .ok () → p.Sound region c.securityGroup → q.Stands region c.securityGroup 1 c.ingressPorts) := by
  have hplain : Plain (.listGroups region) := ⟨rfl, rfl⟩
  cases hcourse with
  | unlisted e =>
    rcases plays_call hreplies hplain h with ⟨hok, -⟩ | ⟨-, -, hrest⟩
    · cases hok
    · exact ⟨hrest ▸ .refl _ p, nofun⟩
  | listed existing htakes =>
    rcases plays_call hreplies hplain h with ⟨hlist, -, hrest⟩ | ⟨⟨e, he⟩, -⟩
    · obtain ⟨hspares, hdone⟩ := plays_takes htakes hreplies hrest
      have hexisting : c.securityGroup ∈ existing ↔ (region, c.securityGroup) ∈ p.groups := by
        cases hlist
        simp [ControlPlane.carryOut]
      exact ⟨hspares, fun hok hsound => hdone hok ▸ hsound.after_replacement c hexisting⟩
    · cases he

/-- Rebuilds one after the other touch the configured group of their regions only. By induction on the rebuilds: a
region in which none fails is left as the last of its rebuilds left it. -/
theorem plays_all {c : FleetConfig} {rebuilds : List Rebuild}
    (hcourses : ∀ r ∈ rebuilds, Rebuilds c r.region r.result r.asked) (hreplies : p.replies = [])
    (h : Plays p (rebuilds.flatMap Rebuild.asked) q) :
    Spares (rebuilds.map fun r => (r.region, c.securityGroup)) p q ∧
      ∀ region ∈ rebuilds.map Rebuild.region, (∀ r ∈ rebuilds, r.region = region → r.result = .ok ()) →
        p.Sound region c.securityGroup → q.Stands region c.securityGroup 1 c.ingressPorts := by
  induction rebuilds generalizing p with
  | nil => exact ⟨h ▸ .refl _ p, nofun⟩
  | cons r rebuilds ih =>
    obtain ⟨hcourse, hcourses⟩ := List.forall_mem_cons.mp hcourses
    obtain ⟨m, hfirst, hlater⟩ := plays_append.mp h
    obtain ⟨hspares, hstands⟩ := plays_rebuilds hcourse hreplies hfirst
    obtain ⟨hlaterSpares, hlaterStands⟩ := ih hcourses (hspares.replies_eq.trans hreplies) hlater
    refine ⟨(hspares.mono (by simp)).trans (hlaterSpares.mono (List.subset_cons_self _ _)), ?_⟩
    intro region hregion hok hsound
    obtain ⟨hfirstOk, hlaterOk⟩ := List.forall_mem_cons.mp hok
    by_cases hmem : region ∈ rebuilds.map Rebuild.region
    · refine hlaterStands region hmem hlaterOk ?_
      by_cases hsame : r.region = region
      · subst hsame
        exact (hstands (hfirstOk rfl) hsound).sound
      · exact hsound.of_spares hspares (by simpa using Ne.symm hsame)
    · obtain rfl := (List.mem_cons.mp hregion).resolve_right hmem
      refine (hstands (hfirstOk rfl) hsound).of_spares hlaterSpares fun hkey => hmem ?_
      obtain ⟨other, hother, heq⟩ := List.mem_map.mp hkey
      exact List.mem_map.mpr ⟨other, hother, congrArg Prod.fst heq⟩

theorem plain_of_rebuilds {c : FleetConfig} {result : Cloud.Answer Unit} (hcourse : Rebuilds c region result xs) :
    ∀ x ∈ xs, ∃ call, x.1 = .cloud call ∧ Plain call := by
  cases hcourse with
  | unlisted e => exact List.forall_mem_singleton.mpr ⟨_, rfl, rfl, rfl⟩
  | listed existing htakes =>
    refine List.forall_mem_cons.mpr ⟨⟨_, rfl, rfl, rfl⟩, fun x hx => ?_⟩
    obtain ⟨step, hstep⟩ := htakes.exists_step x hx
    cases step with
    | delete => exact ⟨_, hstep, rfl, rfl⟩
    | create description => exact ⟨_, hstep, rfl, rfl⟩
    | openPort port => exact ⟨_, hstep, rfl, rfl⟩

end Playing

/-! ## All regions -/

/-- From one plane to another the configured group was rebuilt in the configured regions, each apart. -/
structure Regrouped (c : FleetConfig) (rebuilds : List Rebuild) (p q : ControlPlane) : Prop where
  /-- A call failed exactly if its region is not known, or the operation fails there. -/
  refused : ∀ r ∈ rebuilds, ∀ (call : CloudCall) (reply : Except CloudError call.Reply),
    ⟨.cloud call, reply⟩ ∈ r.asked →
      ((∃ e, reply = .error e) ↔ call.region ∉ p.regions ∨ (call.region, call.operation) ∈ p.failing)
  /-- Where no call failed, the group is there once, with the configured ports. -/
  settled : ∀ region ∈ c.regions, (∀ r ∈ rebuilds, r.region = region → r.asked.filterMap refusal? = []) →
    q.Stands region c.securityGroup 1 c.ingressPorts
  /-- All groups of other names or regions are as before, as is everything else. -/
  spared : Spares (c.regions.map fun region => (region, c.securityGroup)) p q

variable {σ : Type} {w : World σ} {plane : σ → ControlPlane}

/-- Every region is attempted in its turn, whatever fails in others. The attempts in which a call failed are the
failures returned. -/
theorem regions_are_rebuilt_apart (hw : Rehearses w plane) (c : FleetConfig) (s : Run Fleet σ)
    (hreplies : (plane s.world).replies = [])
    (hsound : ∀ i ∈ (plane s.world).ingress, (i.1, i.2.1) ∈ (plane s.world).groups) :
    ∃ rebuilds t, (Fleet.rebuildGroups c).run w s
        = (if ∀ r ∈ rebuilds, r.asked.filterMap refusal? = [] then .returned ()
          else .failed (.provider (rebuilds.filterMap Rebuild.failure?)), t)
      ∧ (∀ r ∈ rebuilds, r.asked.filterMap refusal? = Fleet.errors r.result)
      ∧ Rebuilt c c.regions rebuilds s t
      ∧ Regrouped c rebuilds (plane s.world) (plane t.world) := by
  obtain ⟨rebuilds, t, hrun, hrebuilt⟩ := Fleet.run_rebuildGroups w c s
  have hplays := hw.plays_of_questions hrun hrebuilt.asks.questions_eq
  obtain ⟨hspares, hstands⟩ := plays_all hrebuilt.courses hreplies hplays
  have hrefusals : ∀ r ∈ rebuilds, r.asked.filterMap refusal? = Fleet.errors r.result := fun r hr =>
    (hrebuilt.courses r hr).refusals
  have hnone : rebuilds.filterMap Rebuild.failure? = [] ↔ ∀ r ∈ rebuilds, r.asked.filterMap refusal? = [] := by
    rw [List.filterMap_eq_nil_iff]
    refine forall₂_congr fun r hr => ?_
    rw [hrefusals r hr, Rebuild.failure?_eq_none_iff]
  refine ⟨rebuilds, t, ?_, hrefusals, hrebuilt, ?_, ?_, ?_⟩
  · simpa only [hnone] using hrun
  · intro r hr call reply hmem
    refine refused_iff ?_ hreplies hplays call reply (List.mem_flatMap.mpr ⟨r, hr, hmem⟩)
    intro x hx
    obtain ⟨r, hr, hx⟩ := List.mem_flatMap.mp hx
    exact plain_of_rebuilds (hrebuilt.courses r hr) x hx
  · intro region hregion hok
    refine hstands region (hrebuilt.regions_eq ▸ hregion) (fun r hr hsame => ?_) ?_
    · have hnone := hok r hr hsame
      rw [hrefusals r hr] at hnone
      cases hresult : r.result with
      | ok done => rfl
      | error e => rw [hresult] at hnone; cases hnone
    · exact ControlPlane.sound_of_rules hsound region c.securityGroup
  · rw [← hrebuilt.regions_eq, List.map_map]
    exact hspares

/-! ## A region twice, and one where no port can be opened -/

/-- A fleet in two regions, one of which is listed twice. -/
def thriceRegions : FleetConfig := { regions := [⟨"eu-west-3"⟩, ⟨"us-east-1"⟩, ⟨"eu-west-3"⟩] }

/-- A stage with a control plane that opens no ports in one region. In the other one the group is there already, with
a rule, besides one of another name. -/
def groupedStage : Stage Hosts :=
  { shell := {}
    files := { root := [] }
    plane :=
      { regions := [⟨"eu-west-3"⟩, ⟨"us-east-1"⟩]
        groups := [(⟨"eu-west-3"⟩, "hydrand"), (⟨"eu-west-3"⟩, "default")]
        ingress := [(⟨"eu-west-3"⟩, "hydrand", 9), (⟨"eu-west-3"⟩, "default", 22)]
        failing := [(⟨"us-east-1"⟩, "authorize_ingress")] } }

/-- The group is rebuilt in the region that is listed twice, though another region fails between its turns. -/
theorem regions_are_rebuilt_apart_thrice :
    ∃ rebuilds t, (Fleet.rebuildGroups thriceRegions).run Stage.world (Fleet.fresh groupedStage)
        = (.failed (.provider [(⟨"us-east-1"⟩, .api ⟨"us-east-1"⟩ "authorize_ingress" "injected failure")]), t)
      ∧ Rebuilt thriceRegions thriceRegions.regions rebuilds (Fleet.fresh groupedStage) t
      ∧ Regrouped thriceRegions rebuilds groupedStage.plane t.world.plane
      ∧ t.world.plane.Stands ⟨"eu-west-3"⟩ "hydrand" 1 [22, 8333]
      ∧ t.world.plane.Stands ⟨"eu-west-3"⟩ "default" 1 [22] := by
  obtain ⟨rebuilds, t, hrun, -, hrebuilt, hregrouped⟩ := regions_are_rebuilt_apart rehearses_stage thriceRegions
    (Fleet.fresh groupedStage) rfl (by decide)
  have hending : ((Fleet.rebuildGroups thriceRegions).run Stage.world (Fleet.fresh groupedStage)).1
      = .failed (.provider [(⟨"us-east-1"⟩, .api ⟨"us-east-1"⟩ "authorize_ingress" "injected failure")]) := rfl
  have hplane : t = ((Fleet.rebuildGroups thriceRegions).run Stage.world (Fleet.fresh groupedStage)).2 := by rw [hrun]
  refine ⟨rebuilds, t, Prod.ext hending hplane.symm, hrebuilt, hregrouped, ?_, ?_⟩
  · rw [hplane]
    exact ⟨rfl, rfl⟩
  · exact ControlPlane.Stands.of_spares ⟨rfl, rfl⟩ hregrouped.spared (by decide)

end CloudFleet.Rehearsal
