import CloudFleet.Fleet.Registry
import CloudFleet.Proofs.World.ProgramLogic

/-!
# What changes do to a registry

`Fleet.entries` lists the identifiers with their regions in the order of discovery. A change never takes one away or
alters one (`entries_apply`), so whatever happens, the entries before are the first of the entries after
(`entries_replay`). While no identifier is listed twice, `get?` finds every instance (`get?_of_mem`).
-/

set_option autoImplicit false

namespace CloudFleet

@[simp] theorem Instance.region_enter (i : Instance) (s : InstanceState) : (i.enter s).region = i.region := rfl

@[simp] theorem Instance.region_load (i : Instance) (r : InstanceRecord) (s : InstanceState)
    (status : Option StatusRecord) : (i.load r s status).region = i.region := rfl

@[simp] theorem Instance.region_confirm (i : Instance) : i.confirm.region = i.region := rfl

namespace Fleet

/-- The identifiers with their regions, in the order of discovery. -/
def entries (f : Fleet) : List (InstanceId × Region) := f.instances.map fun i => (i.id, i.region)

@[simp] theorem memory_apply (f : Fleet) (c : Change) : Memory.apply f c = f.apply c := rfl

/-! ## Finding instances -/

theorem mem_of_get? {f : Fleet} {id : InstanceId} {i : Instance} (h : f.get? id = some i) :
    i ∈ f.instances ∧ i.id = id := by
  refine ⟨List.mem_of_find?_eq_some h, ?_⟩
  have := List.find?_some h
  exact beq_iff_eq.mp this

theorem knows_iff {f : Fleet} {id : InstanceId} : f.knows id = true ↔ ∃ i ∈ f.instances, i.id = id := by
  simp [knows, get?, List.find?_isSome]

theorem knows_iff_mem_entries {f : Fleet} {id : InstanceId} : f.knows id = true ↔ ∃ r, (id, r) ∈ f.entries := by
  rw [knows_iff]
  constructor
  · rintro ⟨i, hi, rfl⟩
    exact ⟨i.region, List.mem_map.mpr ⟨i, hi, rfl⟩⟩
  · rintro ⟨r, hr⟩
    obtain ⟨i, hi, he⟩ := List.mem_map.mp hr
    exact ⟨i, hi, congrArg Prod.fst he⟩

/-- The first instance of an identifier is the only one, if the list has no other. -/
theorem find?_id_of_nodup {is : List Instance} (hn : (is.map Instance.id).Nodup) {i : Instance} (hi : i ∈ is) :
    (is.find? fun j => j.id == i.id) = some i := by
  induction is with
  | nil => cases hi
  | cons j is ih =>
    rw [List.map_cons, List.nodup_cons] at hn
    rcases List.mem_cons.mp hi with rfl | hi
    · simp
    · have hne : j.id ≠ i.id := fun e => hn.1 (e ▸ List.mem_map.mpr ⟨i, hi, rfl⟩)
      rw [List.find?_cons_of_neg (by simpa using hne)]
      exact ih hn.2 hi

theorem get?_of_mem {f : Fleet} (hn : (f.instances.map Instance.id).Nodup) {i : Instance} (hi : i ∈ f.instances) :
    f.get? i.id = some i := find?_id_of_nodup hn hi

/-- Where identities are left alone, the instance found is the one found before, changed. -/
theorem get?_map (f : Fleet) {g : Instance → Instance} (hid : ∀ i, (g i).id = i.id) (id : InstanceId) :
    ({ f with instances := f.instances.map g } : Fleet).get? id = (f.get? id).map g := by
  have hsame : (fun i : Instance => i.id == id) ∘ g = fun i => i.id == id := by
    funext i
    rw [Function.comp_apply, hid]
  rw [get?, List.find?_map, hsame, get?]

/-! ## One change -/

theorem instances_added (f : Fleet) (id : InstanceId) (region : Region) (state : InstanceState) :
    (f.apply (.added id region state)).instances = f.instances ++ [.new id region state] := rfl

/-- An update that leaves identities and regions alone leaves the entries alone. -/
theorem entries_update (f : Fleet) (id : InstanceId) {g : Instance → Instance} (hid : ∀ i, (g i).id = i.id)
    (hr : ∀ i, (g i).region = i.region) : (f.update id g).entries = f.entries := by
  simp only [entries, update, List.map_map]
  refine List.map_congr_left fun i _ => ?_
  by_cases h : i.id = id <;> simp [h, hid, hr]

/-- A change adds an entry, or leaves the entries as they are. -/
theorem entries_apply (f : Fleet) (c : Change) :
    (f.apply c).entries = f.entries ++ match c with
      | .added id region _ => [(id, region)]
      | _ => [] := by
  cases c with
  | added id region state => simp [entries, apply, Instance.new]
  | loaded record state status => simpa [apply] using entries_update f record.id (by simp) (by simp)
  | entered id state => simpa [apply] using entries_update f id (by simp) (by simp)
  | confirmed id => simpa [apply] using entries_update f id (by simp) (by simp)
  | imageFound region image => simp [entries, apply]

theorem entries_of_not_added (f : Fleet) {c : Change} (hc : ∀ id region state, c ≠ .added id region state) :
    (f.apply c).entries = f.entries := by
  rw [entries_apply]
  cases c with
  | added id region state => exact absurd rfl (hc id region state)
  | _ => exact List.append_nil _

theorem ids_eq_entries (f : Fleet) : f.instances.map Instance.id = f.entries.map Prod.fst := by
  simp [entries, Function.comp_def]

/-- A change lists no identifier twice if it adds only an instance that is not known. -/
theorem ids_nodup_apply {f : Fleet} (hids : (f.instances.map Instance.id).Nodup) {c : Change}
    (hadd : ∀ other region state, c = .added other region state → ¬f.knows other = true) :
    ((f.apply c).instances.map Instance.id).Nodup := by
  rw [ids_eq_entries] at hids ⊢
  rw [entries_apply, List.map_append]
  cases c with
  | added other region state =>
    refine List.nodup_append.mpr ⟨hids, by simp, fun known hknown new hnew he => ?_⟩
    obtain rfl : new = other := List.mem_singleton.mp hnew
    obtain ⟨⟨known, r⟩, hentry, rfl⟩ := List.mem_map.mp hknown
    obtain rfl : known = new := he
    exact hadd known region state rfl (knows_iff_mem_entries.mpr ⟨r, hentry⟩)
  | _ => simpa using hids

/-! ## Many changes -/

/-- Whatever happens, the entries before are the first of the entries after. -/
theorem entries_replay (f : Fleet) (h : List (Happening Fleet)) : f.entries <+: (replay f h).entries := by
  induction h generalizing f with
  | nil => exact List.prefix_refl _
  | cons happening h ih =>
    cases happening with
    | asked r reply => exact ih f
    | changed c =>
      refine List.IsPrefix.trans ?_ (ih (f.apply c))
      rw [entries_apply]
      exact List.prefix_append _ _

/-- What is known stays known. -/
theorem knows_replay {f : Fleet} {id : InstanceId} (hk : f.knows id = true) (h : List (Happening Fleet)) :
    (replay f h).knows id = true := by
  rw [knows_iff_mem_entries] at hk ⊢
  obtain ⟨r, hr⟩ := hk
  exact ⟨r, (entries_replay f h).subset hr⟩

/-- A region that has an image keeps it. -/
theorem image?_replay_of_eq {f : Fleet} {region : Region} {image : String} (hi : f.image? region = some image)
    (h : List (Happening Fleet)) : (replay f h).image? region = some image := by
  induction h generalizing f with
  | nil => exact hi
  | cons happening h ih =>
    cases happening with
    | asked r reply => exact ih hi
    | changed c =>
      refine ih ?_
      cases c with
      | imageFound r found =>
        show (f.images ++ [(r, found)]).lookup region = some image
        rw [List.lookup_append, show f.images.lookup region = some image from hi]
        rfl
      | _ => exact hi

theorem image?_replay {f : Fleet} {region : Region} (hi : (f.image? region).isSome = true)
    (h : List (Happening Fleet)) : ((replay f h).image? region).isSome = true := by
  obtain ⟨image, hi⟩ := Option.isSome_iff_exists.mp hi
  rw [image?_replay_of_eq hi h]
  rfl

end Fleet

end CloudFleet
