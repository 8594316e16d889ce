import CloudFleet.Fleet.Status
import CloudFleet.Proofs.Fleet.NodeList
import CloudFleet.Proofs.Fleet.Target
import CloudFleet.World.Inert
import Mathlib.Data.List.Basic

/-!
# Instances by region

Whatever the regions are in order of, their groups part the instances (`Parted`): every region that has an instance has
one group, which holds the identifiers of its instances in their order. Group after group, the instances are
rearranged, and those of a region keep their order (`perm_regrouped`, `filter_regrouped`). The groups of a subset come
in the order of their first instances, those of a fleet in the order of the names of their regions, and the numbers of
a status report count the running instances (`instances_are_parted_by_region`).
-/

set_option autoImplicit false

namespace CloudFleet

variable {σ : Type}

/-- What is listed once comes in the order of its first occurrences. -/
theorem pairwise_idxOf_eraseDups {α : Type} [BEq α] [LawfulBEq α] (as : List α) :
    as.eraseDups.Pairwise fun a b => as.idxOf a < as.idxOf b := by
  induction as using List.reverseRecOn with
  | nil => exact .nil
  | append_singleton as a ih =>
    have hbefore {b : α} (hb : b ∈ as) : (as ++ [a]).idxOf b = as.idxOf b := List.idxOf_append_of_mem hb
    have hold : as.eraseDups.Pairwise fun b b' => (as ++ [a]).idxOf b < (as ++ [a]).idxOf b' := by
      refine ih.imp_of_mem fun hb hb' hlt => ?_
      rwa [hbefore (List.mem_eraseDups.mp hb), hbefore (List.mem_eraseDups.mp hb')]
    rw [eraseDups_concat]
    split
    · rwa [List.append_nil]
    · rename_i hnew
      refine List.pairwise_append.mpr ⟨hold, List.pairwise_singleton _ _, fun b hb a' ha' => ?_⟩
      rw [List.mem_singleton.mp ha', hbefore (List.mem_eraseDups.mp hb), List.idxOf_append_of_notMem hnew]
      exact Nat.lt_add_right _ (List.idxOf_lt_length_of_mem (List.mem_eraseDups.mp hb))

namespace Subset

/-- The instances in a region. -/
def within (s : Subset) (region : Region) : Subset := s.filter fun i => i.region == region

/-- Groups that part some instances by region. -/
structure Parted (s : Subset) (groups : List (Region × List InstanceId)) : Prop where
  distinct : (groups.map Prod.fst).Nodup
  /-- The regions that have a group are those that have an instance. -/
  regions : ∀ region, region ∈ groups.map Prod.fst ↔ ∃ i ∈ s, i.region = region
  /-- A group holds the identifiers of the instances of its region, in their order. -/
  ids : ∀ group ∈ groups, group.2 = (s.within group.1).ids
  nonempty : ∀ group ∈ groups, group.2 ≠ []

section Parted

variable {s : Subset} {regions : List Region}

/-- Regions that are listed once, and are those of the instances, part them. -/
theorem parted_of_regions (hn : regions.Nodup) (hregions : ∀ region, region ∈ regions ↔ ∃ i ∈ s, i.region = region) :
    Parted s (regions.map fun r => (r, (s.within r).ids)) := by
  have hfst : (regions.map fun r => (r, (s.within r).ids)).map Prod.fst = regions := by
    rw [List.map_map]
    exact List.map_id _
  refine ⟨by rwa [hfst], fun region => by rw [hfst, hregions], fun group hgroup => ?_, fun group hgroup => ?_⟩
  · obtain ⟨r, -, rfl⟩ := List.mem_map.mp hgroup
    rfl
  · obtain ⟨r, hr, rfl⟩ := List.mem_map.mp hgroup
    obtain ⟨i, hi, rfl⟩ := (hregions r).mp hr
    exact List.ne_nil_of_mem (List.mem_map_of_mem (List.mem_filter.mpr ⟨hi, beq_self_eq_true _⟩))

/-- Every instance is in the group of its region. -/
theorem Parted.exists_group {groups : List (Region × List InstanceId)} (h : Parted s groups) {i : Instance}
    (hi : i ∈ s) : ∃ group ∈ groups, group.1 = i.region ∧ i.id ∈ group.2 := by
  obtain ⟨group, hgroup, hregion⟩ := List.mem_map.mp ((h.regions i.region).mpr ⟨i, hi, rfl⟩)
  refine ⟨group, hgroup, hregion, ?_⟩
  rw [h.ids group hgroup, hregion]
  exact List.mem_map_of_mem (List.mem_filter.mpr ⟨hi, beq_self_eq_true _⟩)

/-- Whoever is in a group is an instance of its region. -/
theorem Parted.exists_mem {groups : List (Region × List InstanceId)} (h : Parted s groups)
    {group : Region × List InstanceId} (hgroup : group ∈ groups) {id : InstanceId} (hid : id ∈ group.2) :
    ∃ i ∈ s, i.region = group.1 ∧ i.id = id := by
  rw [h.ids group hgroup] at hid
  obtain ⟨i, hi, rfl⟩ := List.mem_map.mp hid
  obtain ⟨hi, hregion⟩ := List.mem_filter.mp hi
  exact ⟨i, hi, beq_iff_eq.mp hregion, rfl⟩

/-- Region after region, the instances are rearranged. -/
theorem perm_regrouped (hn : regions.Nodup) (hcover : ∀ i ∈ s, i.region ∈ regions) :
    (regions.flatMap s.within).Perm s := by
  induction regions generalizing s with
  | nil =>
    have hnone : s = [] := List.eq_nil_iff_forall_not_mem.mpr fun i hi => absurd (hcover i hi) List.not_mem_nil
    rw [hnone]
    exact .nil
  | cons region regions ih =>
    rw [List.nodup_cons] at hn
    -- the instances elsewhere, and their regions, are the same without this region
    have hrest : regions.flatMap s.within = regions.flatMap (within (s.filter fun i => !(i.region == region))) := by
      refine List.flatMap_congr fun r hr => ?_
      rw [within, within, List.filter_filter]
      refine List.filter_congr fun i _ => ?_
      by_cases hi : i.region = r
      · have hne : i.region ≠ region := fun he => hn.1 (he ▸ hi ▸ hr)
        simp [hi, hi ▸ hne]
      · simp [hi]
    have hcovered : ∀ i ∈ s.filter (fun i => !(i.region == region)), i.region ∈ regions := by
      intro i hi
      obtain ⟨hi, hne⟩ := List.mem_filter.mp hi
      exact (List.mem_cons.mp (hcover i hi)).resolve_left (by simpa using hne)
    rw [List.flatMap_cons, hrest]
    exact ((ih hn.2 hcovered).append_left _).trans (List.filter_append_perm _ _)

/-- Region after region, the instances of each keep their order. -/
theorem filter_regrouped (hn : regions.Nodup) (hcover : ∀ i ∈ s, i.region ∈ regions) (region : Region) :
    within (regions.flatMap s.within) region = s.within region := by
  have hsame (r : Region) : within (s.within r) region = if r = region then s.within region else [] := by
    rw [within, within, List.filter_filter]
    split
    · rename_i heq
      rw [heq]
      simp [within]
    · rename_i hne
      refine List.filter_eq_nil_iff.mpr fun i _ => ?_
      simp only [Bool.and_eq_true, beq_iff_eq, not_and]
      exact fun hi he => hne (he ▸ hi)
  have hmem : within (regions.flatMap s.within) region = if region ∈ regions then s.within region else [] := by
    rw [within, List.filter_flatMap]
    show regions.flatMap (fun r => within (s.within r) region) = _
    simp only [hsame]
    clear hcover
    induction regions with
    | nil => rfl
    | cons r regions ih =>
      rw [List.nodup_cons] at hn
      rw [List.flatMap_cons, ih hn.2]
      by_cases hr : r = region
      · subst hr
        rw [if_pos rfl, if_neg hn.1, List.append_nil, if_pos List.mem_cons_self]
      · simp [hr, Ne.symm hr]
  rw [hmem]
  split
  · rfl
  · rename_i hnone
    refine (List.filter_eq_nil_iff.mpr fun i hi he => hnone ?_).symm
    exact beq_iff_eq.mp he ▸ hcover i hi

/-- The instances of a list of groups are a rearrangement of those that are parted, in which those of a region keep
their order. -/
theorem Parted.regrouped {groups : List (Region × List InstanceId)} (h : Parted s groups) :
    ∃ regrouped : Subset, groups.flatMap Prod.snd = regrouped.ids ∧ regrouped.Perm s
      ∧ ∀ region, regrouped.within region = s.within region := by
  have hcover : ∀ i ∈ s, i.region ∈ groups.map Prod.fst := fun i hi => (h.regions _).mpr ⟨i, hi, rfl⟩
  refine ⟨(groups.map Prod.fst).flatMap s.within, ?_, perm_regrouped h.distinct hcover,
    filter_regrouped h.distinct hcover⟩
  rw [Subset.ids, List.map_flatMap, List.flatMap_map]
  exact List.flatMap_congr h.ids

end Parted

/-- The regions of a subset, in order of first appearance. -/
theorem regions_byRegion (s : Subset) : (byRegion s).map Prod.fst = (s.map Instance.region).eraseDups := by
  rw [byRegion_eq, List.map_map]
  exact List.map_id _

theorem parted_byRegion (s : Subset) : Parted s (byRegion s) := by
  rw [byRegion_eq]
  exact parted_of_regions (nodup_eraseDups _) fun region => by rw [List.mem_eraseDups, List.mem_map]

end Subset

namespace Fleet

/-! ## The groups of a fleet -/

/-- The groups of a fleet, with the identifiers of their instances. -/
def idGroups (f : Fleet) : List (Region × List InstanceId) := f.byRegion.map fun group => (group.1, Subset.ids group.2)

/-- A fleet has the groups of all its instances, in another order. -/
theorem perm_idGroups (f : Fleet) : f.idGroups.Perm (Subset.byRegion f.instances) := by
  rw [idGroups, byRegion, Subset.byRegion_eq, List.map_map]
  exact (List.mergeSort_perm _ _).map _

/-- The groups of a fleet are in the order of the names of their regions. -/
theorem pairwise_byRegion (f : Fleet) : (f.byRegion.map fun group => group.1.name).Pairwise (· < ·) := by
  have hregions : f.byRegion.map Prod.fst
      = (f.instances.map Instance.region).eraseDups.mergeSort fun a b => decide (a.name ≤ b.name) := by
    rw [byRegion, List.map_map]
    exact List.map_id _
  have hle := pairwise_mergeSort_by Region.name (f.instances.map Instance.region).eraseDups
  have hne := (List.mergeSort_perm (f.instances.map Instance.region).eraseDups
    fun a b => decide (a.name ≤ b.name)).nodup_iff.mpr (nodup_eraseDups _)
  rw [← hregions] at hle hne
  rw [show (fun group : Region × Subset => group.1.name) = Region.name ∘ Prod.fst from rfl, ← List.map_map,
    List.pairwise_map]
  refine (hle.and hne).imp fun {a b} h => String.not_le.mp fun hge => h.2 ?_
  obtain ⟨a⟩ := a
  obtain ⟨b⟩ := b
  exact congrArg Region.mk (String.le_antisymm h.1 hge)

/-! ## The numbers of a report -/

/-- Counting groups counts what is in them. -/
theorem foldl_counts (groups : List (Region × List InstanceId)) (n : Nat) :
    (groups.map fun group => (group.1, group.2.length)).foldl (fun n entry => n + entry.2) n
      = n + (groups.flatMap Prod.snd).length := by
  induction groups generalizing n with
  | nil => rfl
  | cons group groups ih =>
    rw [List.map_cons, List.foldl_cons, ih, List.flatMap_cons, List.length_append, Nat.add_assoc]

/-- The numbers of a report sum to the number of running instances. -/
theorem running_report (f : Fleet) : f.report.running = f.running.length := by
  obtain ⟨regrouped, hids, hperm, -⟩ := (Subset.parted_byRegion f.running).regrouped
  rw [StatusReport.running, report, foldl_counts, Nat.zero_add, hids, Subset.ids, List.length_map, hperm.length_eq]

/-- A status that is returned is the report on what is known then. -/
theorem report_of_status {w : World σ} {c : FleetConfig} {u t : Run Fleet σ} {r : StatusReport}
    (h : (status c).run w u = (.returned r, t)) : r = t.own.report := by
  rw [status, Program.run_andThen] at h
  cases hr : (refresh c .all).run w u with
  | mk ending v =>
    rw [hr] at h
    cases ending with
    | returned _ =>
      cases h
      rfl
    | _ => cases h

/-- **Grouping by region is a partition.** The groups of a subset part its instances, their regions in the order of
first appearance, and group after group its instances are rearranged, those of a region in their order. A fleet has the
groups of all its instances, in the order of the names of their regions. The numbers of a status that is returned are
those of the running instances in each region that has one, and sum to the number of running instances. -/
theorem instances_are_parted_by_region (s : Subset) (f : Fleet) (w : World σ) (c : FleetConfig) (u : Run Fleet σ) :
    (s.Parted s.byRegion
        ∧ (s.byRegion.map Prod.fst).Pairwise (fun r r' =>
          (s.map Instance.region).idxOf r < (s.map Instance.region).idxOf r')
        ∧ ∃ regrouped : Subset, s.byRegion.flatMap Prod.snd = regrouped.ids ∧ regrouped.Perm s
          ∧ ∀ region, regrouped.within region = s.within region)
      ∧ ((∀ group ∈ f.byRegion, group.2 = Subset.within f.instances group.1)
        ∧ f.idGroups.Perm (Subset.byRegion f.instances)
        ∧ (f.byRegion.map fun group => group.1.name).Pairwise (· < ·))
      ∧ ∀ r t, (status c).run w u = (.returned r, t) → r.instances = t.own.instances
        ∧ r.runningPerRegion = (Subset.byRegion t.own.running).map (fun group => (group.1, group.2.length))
        ∧ r.running = (r.instances.filter fun i => i.state = .running).length := by
  refine ⟨⟨Subset.parted_byRegion s, ?_, (Subset.parted_byRegion s).regrouped⟩,
    ⟨fun group hgroup => ?_, f.perm_idGroups, f.pairwise_byRegion⟩, fun r t hrun => ?_⟩
  · rw [Subset.regions_byRegion]
    exact pairwise_idxOf_eraseDups _
  · obtain ⟨region, -, rfl⟩ := List.mem_map.mp hgroup
    rfl
  · rw [report_of_status hrun]
    exact ⟨rfl, rfl, t.own.running_report⟩

/-- Instances in two regions, one of them stopped. -/
def dispersed : Fleet where
  instances := [⟨"i-1", ⟨"us-east-1"⟩, none, .running, false, none⟩,
    ⟨"i-2", ⟨"eu-west-3"⟩, none, .running, false, none⟩, ⟨"i-3", ⟨"us-east-1"⟩, none, .stopped, false, none⟩,
    ⟨"i-4", ⟨"us-east-1"⟩, none, .running, false, none⟩]

/-- A world in which nothing is found out. -/
def unanswering : World Unit where
  answer r u := (r.unanswered, u)

/-- Three instances run, in two regions. -/
theorem instances_are_parted_by_region_two :
    ∃ r t, (status { regions := [] }).run unanswering ⟨dispersed, (), []⟩ = (.returned r, t)
      ∧ r.runningPerRegion = [(⟨"us-east-1"⟩, 2), (⟨"eu-west-3"⟩, 1)]
      ∧ r.running = (r.instances.filter fun i => i.state = .running).length := by
  obtain ⟨-, -, hstatus⟩ := instances_are_parted_by_region dispersed.instances dispersed unanswering
    { regions := [] } ⟨dispersed, (), []⟩
  obtain ⟨-, -, hrunning⟩ := hstatus dispersed.report _ rfl
  exact ⟨dispersed.report, _, rfl, by decide, hrunning⟩

end Fleet

end CloudFleet
