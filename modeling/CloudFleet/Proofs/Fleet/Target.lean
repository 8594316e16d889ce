import CloudFleet.Fleet.Refresh
import CloudFleet.Proofs.Fleet.Registry
import Mathlib.Data.List.Induction

/-!
# What targets name

Looking up identifiers gives the instances that the registry has under them, in the order of the identifiers
(`lookupAll_eq_ok_iff`), and succeeds where all of them are known (`lookupAll_of_knows`). Whatever a target names is in
the registry (`mem_of_resolve`). What is found depends on the entries alone, so a registry with more entries finds the
same (`lookupAll_of_more`).

The groups of some instances are their regions in the order of first appearance, each with the identifiers of its own
instances (`byRegion_eq`).
-/

set_option autoImplicit false

namespace CloudFleet

/-! ## Lists without repetitions -/

section EraseDups

variable {α : Type} [BEq α] [LawfulBEq α]

/-- No entry occurs twice. -/
theorem nodup_eraseDups : (as : List α) → as.eraseDups.Nodup
  | [] => List.nodup_nil
  | a :: as => by
    have hshort : (as.filter fun b => !b == a).length < as.length + 1 := Nat.lt_succ_of_le (List.length_filter_le _ _)
    rw [List.eraseDups_cons, List.nodup_cons]
    refine ⟨fun h => ?_, nodup_eraseDups _⟩
    simp [List.mem_eraseDups] at h
termination_by as => as.length

/-- Whether repetitions or other entries are left out first makes no difference. -/
theorem eraseDups_filter (p : α → Bool) : (as : List α) → (as.filter p).eraseDups = as.eraseDups.filter p
  | [] => rfl
  | a :: as => by
    have hshort : (as.filter fun b => !b == a).length < as.length + 1 := Nat.lt_succ_of_le (List.length_filter_le _ _)
    have ih := eraseDups_filter p (as.filter fun b => !b == a)
    rw [List.eraseDups_cons]
    by_cases h : p a = true
    · rw [List.filter_cons_of_pos h, List.filter_cons_of_pos h, List.eraseDups_cons, ← ih, List.filter_filter,
        List.filter_filter]
      simp only [Bool.and_comm]
    · rw [List.filter_cons_of_neg h, List.filter_cons_of_neg h, ← ih, List.filter_filter]
      refine congrArg List.eraseDups (List.filter_congr fun b _ => ?_)
      by_cases hb : b = a <;> simp [hb, h]
termination_by as => as.length

/-- An entry at the end counts if it did not occur before. -/
theorem eraseDups_concat (as : List α) (a : α) :
    (as ++ [a]).eraseDups = as.eraseDups ++ if a ∈ as then [] else [a] := by
  have hrest : ([a].removeAll as).eraseDups = if a ∈ as then [] else [a] := by
    by_cases h : a ∈ as <;> simp [List.removeAll, List.eraseDups_cons, h]
  rw [List.eraseDups_append, hrest]

end EraseDups

theorem firstMentions_eq_eraseDups (ids : List InstanceId) : firstMentions ids = ids.eraseDups := by
  induction ids with
  | nil => rfl
  | cons id ids ih =>
    rw [firstMentions, ih, List.eraseDups_cons, eraseDups_filter]
    rfl

/-! ## Groups -/

namespace Subset

/-- An instance goes to the group of its region, or makes a new last one. -/
theorem addToGroups_map (region : Region) (id : InstanceId) (idsOf : Region → List InstanceId) {regions : List Region}
    (hn : regions.Nodup) :
    addToGroups region id (regions.map fun r => (r, idsOf r))
      = (regions.map fun r => (r, idsOf r ++ if r = region then [id] else []))
        ++ if region ∈ regions then [] else [(region, [id])] := by
  induction regions with
  | nil => rfl
  | cons r regions ih =>
    rw [List.nodup_cons] at hn
    rw [List.map_cons, addToGroups]
    by_cases h : r = region
    · subst h
      -- it is the first group, and none of the others
      have hothers : (regions.map fun r' => (r', idsOf r' ++ if r' = r then [id] else []))
          = regions.map fun r' => (r', idsOf r') := by
        refine List.map_congr_left fun r' hr' => ?_
        have hne : r' ≠ r := fun he => hn.1 (he ▸ hr')
        rw [if_neg hne, List.append_nil]
      simp [hothers]
    · simp [h, Ne.symm h, ih hn.2]

/-- The identifiers of the instances in a region, in their order. -/
def idsIn (s : Subset) (region : Region) : List InstanceId :=
  (s.filter fun i => i.region == region).map Instance.id

theorem idsIn_concat (s : Subset) (i : Instance) (region : Region) :
    idsIn (s ++ [i]) region = idsIn s region ++ if region = i.region then [i.id] else [] := by
  unfold idsIn
  by_cases h : i.region = region
  · simp [h]
  · simp [h, Ne.symm h]

/-- The regions in the order of their first instances, each with its identifiers. -/
theorem byRegion_eq (s : Subset) : byRegion s = (s.map Instance.region).eraseDups.map fun r => (r, idsIn s r) := by
  induction s using List.reverseRecOn with
  | nil => rfl
  | append_singleton s i ih =>
    have hstep : byRegion (s ++ [i]) = addToGroups i.region i.id (byRegion s) := by
      rw [byRegion, List.foldl_append]
      rfl
    rw [hstep, ih, addToGroups_map _ _ _ (nodup_eraseDups _), List.map_append, List.map_singleton, eraseDups_concat,
      List.map_append]
    simp only [idsIn_concat, List.mem_eraseDups]
    by_cases h : i.region ∈ s.map Instance.region
    · simp [h]
    · have hnone : idsIn s i.region = [] := by
        refine List.map_eq_nil_iff.mpr (List.filter_eq_nil_iff.mpr fun j hj he => h ?_)
        exact List.mem_map.mpr ⟨j, hj, beq_iff_eq.mp he⟩
      simp [h, hnone]

end Subset

/-- Whether the error is that a target does not exist. -/
def FleetError.missing : FleetError → Bool
  | notFound _ | indexOutOfRange .. => true
  | _ => false

namespace Fleet

/-! ## Looking up -/

theorem lookup_eq_ok_iff {f : Fleet} {id : InstanceId} {i : Instance} :
    f.lookup id = .ok i ↔ f.get? id = some i := by
  unfold lookup
  split <;> simp_all

theorem lookupAll_cons_eq_ok_iff {f : Fleet} {id : InstanceId} {ids : List InstanceId} {is : Subset} :
    f.lookupAll (id :: ids) = .ok is ↔ ∃ i rest, f.lookup id = .ok i ∧ f.lookupAll ids = .ok rest ∧ is = i :: rest := by
  rw [lookupAll]
  cases f.lookup id with
  | error e => simp
  | ok i => cases f.lookupAll ids <;> simp [eq_comm]

/-- What is found are the instances under the identifiers, in their order. -/
theorem lookupAll_eq_ok_iff {f : Fleet} {ids : List InstanceId} {is : Subset} :
    f.lookupAll ids = .ok is ↔ ids.map f.get? = is.map some := by
  induction ids generalizing is with
  | nil => cases is <;> simp [lookupAll]
  | cons id ids ih =>
    rw [lookupAll_cons_eq_ok_iff]
    simp only [lookup_eq_ok_iff, ih]
    cases is with
    | nil => simp
    | cons i is =>
      constructor
      · rintro ⟨j, rest, hj, hrest, heq⟩
        obtain ⟨rfl, rfl⟩ := List.cons.inj heq
        rw [List.map_cons, List.map_cons, hj, hrest]
      · intro h
        obtain ⟨hi, hrest⟩ := List.cons.inj h
        exact ⟨i, is, hi, hrest, rfl⟩

theorem ids_lookupAll {f : Fleet} {ids : List InstanceId} {is : Subset} (h : f.lookupAll ids = .ok is) :
    is.ids = ids := by
  induction ids generalizing is with
  | nil =>
    cases h
    rfl
  | cons id ids ih =>
    obtain ⟨i, rest, hi, hrest, rfl⟩ := lookupAll_cons_eq_ok_iff.mp h
    rw [Subset.ids, List.map_cons, (mem_of_get? (lookup_eq_ok_iff.mp hi)).2]
    exact congrArg (id :: ·) (ih hrest)

theorem get?_of_mem_lookupAll {f : Fleet} {ids : List InstanceId} {is : Subset} (h : f.lookupAll ids = .ok is)
    {i : Instance} (hi : i ∈ is) : f.get? i.id = some i := by
  have hm : some i ∈ ids.map f.get? := by
    rw [lookupAll_eq_ok_iff.mp h]
    exact List.mem_map_of_mem hi
  obtain ⟨id, -, hid⟩ := List.mem_map.mp hm
  rwa [(mem_of_get? hid).2]

/-- Where every identifier is known, all are found. -/
theorem lookupAll_of_knows {f : Fleet} {ids : List InstanceId} (h : ∀ id ∈ ids, f.knows id = true) :
    ∃ is, f.lookupAll ids = .ok is := by
  induction ids with
  | nil => exact ⟨[], rfl⟩
  | cons id ids ih =>
    obtain ⟨i, hi⟩ := Option.isSome_iff_exists.mp (h id List.mem_cons_self)
    obtain ⟨rest, hrest⟩ := ih fun k hk => h k (List.mem_cons_of_mem _ hk)
    exact ⟨i :: rest, lookupAll_cons_eq_ok_iff.mpr ⟨i, rest, lookup_eq_ok_iff.mpr hi, hrest, rfl⟩⟩

/-- Whatever a target names is in the registry. -/
theorem mem_of_resolve {f : Fleet} {target : Target} {is : Subset} (h : f.resolve target = .ok is) {i : Instance}
    (hi : i ∈ is) : i ∈ f.instances := by
  cases target with
  | all =>
    cases h
    exact hi
  | id id =>
    cases hj : f.lookup id with
    | error e => simp [resolve, hj, Except.map] at h
    | ok j =>
      simp only [resolve, hj, Except.map, Except.ok.injEq] at h
      subst h
      cases List.mem_singleton.mp hi
      exact (mem_of_get? (lookup_eq_ok_iff.mp hj)).1
  | index index =>
    cases hj : (position? f.size index).bind fun n => f.instances[n]? with
    | none => simp [resolve, hj] at h
    | some j =>
      simp only [resolve, hj, Except.ok.injEq] at h
      subst h
      cases List.mem_singleton.mp hi
      obtain ⟨n, -, hn⟩ := Option.bind_eq_some_iff.mp hj
      exact List.mem_of_getElem? hn
  | ids ids => exact (mem_of_get? (get?_of_mem_lookupAll h hi)).1
  | subset s => exact (mem_of_get? (get?_of_mem_lookupAll h hi)).1
  | matching p =>
    cases h
    exact (List.mem_filter.mp hi).1

theorem missing_of_lookupAll {f : Fleet} {ids : List InstanceId} {e : FleetError} (h : f.lookupAll ids = .error e) :
    e.missing = true := by
  induction ids with
  | nil => cases h
  | cons id ids ih =>
    rw [lookupAll, lookup] at h
    cases hi : f.get? id with
    | none =>
      simp only [hi, Except.error.injEq] at h
      rw [← h]
      rfl
    | some i =>
      cases hrest : f.lookupAll ids with
      | error e' =>
        simp only [hi, hrest, Except.error.injEq] at h
        exact ih (hrest.trans (congrArg Except.error h))
      | ok is => simp [hi, hrest] at h

/-- A target that cannot be resolved does not exist. -/
theorem missing_of_resolve {f : Fleet} {target : Target} {e : FleetError} (h : f.resolve target = .error e) :
    e.missing = true := by
  cases target with
  | all => cases h
  | id id =>
    rw [resolve, lookup] at h
    cases hi : f.get? id with
    | none =>
      simp only [hi, Except.map, Except.error.injEq] at h
      rw [← h]
      rfl
    | some i => simp [hi, Except.map] at h
  | index index =>
    rw [resolve] at h
    split at h
    · cases h
    · cases h
      rfl
  | ids ids => exact missing_of_lookupAll h
  | subset s => exact missing_of_lookupAll h
  | matching p => cases h

/-! ## Looking up later -/

/-- What groups are made of. -/
def entry (i : Instance) : InstanceId × Region := (i.id, i.region)

theorem get?_entry (f : Fleet) (id : InstanceId) : (f.get? id).map entry = f.entries.find? fun e => e.1 == id := by
  rw [entries, List.find?_map]
  rfl

/-- An instance that is found keeps its entry, whatever is added after it. -/
theorem lookup_of_more {f g : Fleet} (h : f.entries <+: g.entries) {id : InstanceId} {i : Instance}
    (hi : f.lookup id = .ok i) : ∃ j, g.lookup id = .ok j ∧ entry j = entry i := by
  obtain ⟨later, hlater⟩ := h
  have hfound : (g.get? id).map entry = some (entry i) := by
    rw [get?_entry, ← hlater, List.find?_append, ← get?_entry f, lookup_eq_ok_iff.mp hi]
    rfl
  obtain ⟨j, hj, hentry⟩ := Option.map_eq_some_iff.mp hfound
  exact ⟨j, lookup_eq_ok_iff.mpr hj, hentry⟩

theorem lookupAll_of_more {f g : Fleet} (h : f.entries <+: g.entries) {ids : List InstanceId} {is : Subset}
    (his : f.lookupAll ids = .ok is) : ∃ js, g.lookupAll ids = .ok js ∧ js.map entry = is.map entry := by
  induction ids generalizing is with
  | nil =>
    cases his
    exact ⟨[], rfl, rfl⟩
  | cons id ids ih =>
    obtain ⟨i, rest, hi, hrest, rfl⟩ := lookupAll_cons_eq_ok_iff.mp his
    obtain ⟨j, hj, hentry⟩ := lookup_of_more h hi
    obtain ⟨js, hjs, hentries⟩ := ih hrest
    refine ⟨j :: js, lookupAll_cons_eq_ok_iff.mpr ⟨j, js, hj, hjs, rfl⟩, ?_⟩
    rw [List.map_cons, List.map_cons, hentry, hentries]

/-- Groups are made of entries alone. -/
theorem byRegion_congr {is js : Subset} (h : js.map entry = is.map entry) :
    Subset.byRegion js = Subset.byRegion is := by
  have hfold : ∀ s : Subset, Subset.byRegion s
      = (s.map entry).foldl (fun groups e => Subset.addToGroups e.2 e.1 groups) [] := fun s => by
    rw [List.foldl_map]
    rfl
  rw [hfold, hfold, h]

end Fleet

end CloudFleet
