import CloudFleet.Proofs.Fleet.Describing
import CloudFleet.Proofs.Fleet.Index
import CloudFleet.Proofs.Fleet.Target
import CloudFleet.World.Inert

/-!
# Refreshing twice is refreshing once

In a world that always gives the same answers to the same inquiries (`Steady`), a refresh of fixed groups does the same
to every fleet: it takes over the same sightings and confirms who answers (`refresh_of_steady`). Doing so once more
changes nothing (`onceMore`). The flag of an instance is the crux: taking over the sightings again either clears it on
the way, and then the same probe raises it again, or leaves it as it is (`Cleared`).

Main statement, for every fleet and every target that is not about positions or properties: `refresh_refresh`.
-/

set_option autoImplicit false

namespace CloudFleet

variable {σ : Type}

/-- Whether a request inquires about instances: how they are described, how they are, whether they can be reached. -/
def Request.inquires : Request → Bool
  | .cloud (.describeInstances ..) | .cloud (.describeStatuses ..) | .probe .. => true
  | _ => false

/-- Whether the target names its instances, and is not about positions or properties. -/
def Target.named : Target → Bool
  | all | id _ | ids _ | subset _ => true
  | index _ | matching _ => false

namespace Fleet

/-! ## Sightings of one instance -/

/-- The instance after an observation, which may be of another one. -/
def loadOne (o : Observation) (i : Instance) : Instance :=
  if i.id = o.record.id then i.load o.record o.state o.status else i

/-- The instance after the sightings that are its own were taken over. -/
def loadAll (xs : List (Region × Observation)) (i : Instance) : Instance := xs.foldl (fun i x => loadOne x.2 i) i

/-- A sighting of the instance in another state than running. -/
def Cleared (xs : List (Region × Observation)) (id : InstanceId) : Prop :=
  ∃ x ∈ xs, x.2.record.id = id ∧ x.2.state ≠ .running

section Loading

variable {x : Region × Observation} {xs : List (Region × Observation)} {i j : Instance}

theorem loadAll_cons_of_eq (h : i.id = x.2.record.id) :
    loadAll (x :: xs) i = loadAll xs (i.load x.2.record x.2.state x.2.status) := by
  rw [loadAll, List.foldl_cons, loadOne, if_pos h]
  rfl

theorem loadAll_cons_of_ne (h : i.id ≠ x.2.record.id) : loadAll (x :: xs) i = loadAll xs i := by
  rw [loadAll, List.foldl_cons, loadOne, if_neg h]
  rfl

@[simp] theorem id_loadAll (xs : List (Region × Observation)) (i : Instance) : (loadAll xs i).id = i.id := by
  induction xs generalizing i with
  | nil => rfl
  | cons x xs ih =>
    by_cases h : i.id = x.2.record.id
    · rw [loadAll_cons_of_eq h, ih, Instance.id_load]
    · rw [loadAll_cons_of_ne h, ih]

theorem loadAll_of_absent (h : ∀ x ∈ xs, i.id ≠ x.2.record.id) : loadAll xs i = i := by
  induction xs with
  | nil => rfl
  | cons x xs ih =>
    rw [loadAll_cons_of_ne (h x List.mem_cons_self)]
    exact ih fun y hy => h y (List.mem_cons_of_mem _ hy)

/-- Whoever cleared the flag, what follows does not depend on what was known before. -/
theorem loadAll_of_cleared (h : Cleared xs i.id) (hid : j.id = i.id) (hregion : j.region = i.region) :
    loadAll xs j = loadAll xs i := by
  induction xs generalizing i j with
  | nil =>
    obtain ⟨x, hx, -⟩ := h
    cases hx
  | cons x xs ih =>
    obtain ⟨y, hy, hyid, hrun⟩ := h
    by_cases hx : i.id = x.2.record.id
    · rw [loadAll_cons_of_eq hx, loadAll_cons_of_eq (hid.trans hx)]
      by_cases hstate : x.2.state = .running
      · refine ih ⟨y, ?_, by simpa using hyid, hrun⟩ (by simpa using hid) (by simpa using hregion)
        rcases List.mem_cons.mp hy with rfl | hy
        · exact absurd hstate hrun
        · exact hy
      · simp [Instance.load, Instance.enter, hstate, hid, hregion]
    · rw [loadAll_cons_of_ne hx, loadAll_cons_of_ne (hid ▸ hx)]
      refine ih ⟨y, ?_, hyid, hrun⟩ hid hregion
      rcases List.mem_cons.mp hy with rfl | hy
      · exact absurd hyid.symm hx
      · exact hy

/-- An instance that is seen, and running each time, runs; all but the flag does not depend on what was known before,
and the flag of an instance that ran before stays as it was. -/
theorem loadAll_of_seen (h : ¬Cleared xs i.id) (hseen : ∃ x ∈ xs, i.id = x.2.record.id) (hid : j.id = i.id)
    (hregion : j.region = i.region) (hrun : j.state = .running) :
    (loadAll xs i).state = .running ∧ loadAll xs j = { loadAll xs i with reachable := j.reachable } := by
  induction xs generalizing i j with
  | nil =>
    obtain ⟨x, hx, -⟩ := hseen
    cases hx
  | cons x xs ih =>
    have hrest : ¬Cleared xs i.id := fun ⟨y, hy, hyid, hystate⟩ => h ⟨y, List.mem_cons_of_mem _ hy, hyid, hystate⟩
    by_cases hx : i.id = x.2.record.id
    · have hstate : x.2.state = .running := by
        by_contra hne
        exact h ⟨x, List.mem_cons_self, hx.symm, hne⟩
      rw [loadAll_cons_of_eq hx, loadAll_cons_of_eq (hid.trans hx)]
      -- seen once more or for the last time: the load alone does what is claimed
      by_cases hagain : ∃ y ∈ xs, i.id = y.2.record.id
      · have := ih (i := i.load x.2.record x.2.state x.2.status) (j := j.load x.2.record x.2.state x.2.status)
          (by simpa using hrest) (by simpa using hagain) (by simpa using hid) (by simpa using hregion)
          (by simpa [Instance.load] using hstate)
        simpa [Instance.load, Instance.enter, hstate, hrun] using this
      · have habsent : ∀ y ∈ xs, i.id ≠ y.2.record.id := fun y hy he => hagain ⟨y, hy, he⟩
        rw [loadAll_of_absent (by simpa using habsent), loadAll_of_absent (by simpa [hid] using habsent)]
        simp [Instance.load, Instance.enter, hstate, hrun, hid, hregion]
    · rw [loadAll_cons_of_ne hx, loadAll_cons_of_ne (hid ▸ hx)]
      refine ih hrest ?_ hid hregion hrun
      obtain ⟨y, hy, hyid⟩ := hseen
      rcases List.mem_cons.mp hy with rfl | hy
      · exact absurd hyid hx
      · exact ⟨y, hy, hyid⟩

@[simp] theorem region_loadAll (xs : List (Region × Observation)) (i : Instance) :
    (loadAll xs i).region = i.region := by
  induction xs generalizing i with
  | nil => rfl
  | cons x xs ih =>
    by_cases h : i.id = x.2.record.id
    · rw [loadAll_cons_of_eq h, ih, Instance.region_load]
    · rw [loadAll_cons_of_ne h, ih]

/-- Without a clearing, the same sightings again change nothing, whether the flag was raised meanwhile or not. -/
theorem loadAll_again_of_not_cleared (h : ¬Cleared xs i.id) (b : Bool) :
    loadAll xs { loadAll xs i with reachable := b } = { loadAll xs i with reachable := b } := by
  by_cases hseen : ∃ x ∈ xs, i.id = x.2.record.id
  · have hstate := (loadAll_of_seen (j := { i with state := .running }) h hseen rfl rfl rfl).1
    exact (loadAll_of_seen (j := { loadAll xs i with reachable := b }) h hseen (by simp) (by simp) hstate).2
  · have habsent : ∀ x ∈ xs, i.id ≠ x.2.record.id := fun x hx he => hseen ⟨x, hx, he⟩
    exact loadAll_of_absent (by simpa using habsent)

end Loading

/-! ## Sightings of many instances -/

theorem entries_see (f : Fleet) (region : Region) (o : Observation) :
    (f.see region o).entries = f.entries ++ if f.knows o.record.id then [] else [(o.record.id, region)] := by
  unfold see
  split <;> simp [entries_apply]

/-- What is known stays known, and what is seen is known. -/
theorem knows_see_iff {f : Fleet} {region : Region} {o : Observation} {id : InstanceId} :
    (f.see region o).knows id = true ↔ f.knows id = true ∨ id = o.record.id := by
  simp only [knows_iff_mem_entries, entries_see]
  by_cases h : f.knows o.record.id = true
  · simp only [h, if_true, List.append_nil]
    refine ⟨Or.inl, fun hid => ?_⟩
    rcases hid with hid | rfl
    · exact hid
    · exact knows_iff_mem_entries.mp h
  · simp only [h, List.mem_append]
    constructor
    · rintro ⟨r, hr | hr⟩
      · exact Or.inl ⟨r, hr⟩
      · simp only [Bool.false_eq_true, if_false, List.mem_singleton, Prod.mk.injEq] at hr
        exact Or.inr hr.1
    · rintro (⟨r, hr⟩ | rfl)
      · exact ⟨r, Or.inl hr⟩
      · exact ⟨region, Or.inr (by simp)⟩

theorem knows_seeAll {f : Fleet} {xs : List (Region × Observation)} {id : InstanceId}
    (h : f.knows id = true ∨ ∃ x ∈ xs, id = x.2.record.id) : (f.seeAll xs).knows id = true := by
  induction xs generalizing f with
  | nil =>
    rcases h with h | ⟨x, hx, -⟩
    · exact h
    · cases hx
  | cons x xs ih =>
    refine ih ?_
    rcases h with h | ⟨y, hy, hid⟩
    · exact Or.inl (knows_see_iff.mpr (Or.inl h))
    · rcases List.mem_cons.mp hy with rfl | hy
      · exact Or.inl (knows_see_iff.mpr (Or.inr hid))
      · exact Or.inr ⟨y, hy, hid⟩

/-- Sightings add instances that are seen and were not known, each once, and load each instance, old or new, with those
that are its own. -/
theorem instances_seeAll (f : Fleet) (xs : List (Region × Observation)) :
    ∃ new : List Instance, (∀ i ∈ new, ¬f.knows i.id = true ∧ ∃ x ∈ xs, i.id = x.2.record.id)
      ∧ (new.map Instance.id).Nodup ∧ (f.seeAll xs).instances = (f.instances ++ new).map (loadAll xs) := by
  induction xs generalizing f with
  | nil =>
    have hid : loadAll [] = id := rfl
    exact ⟨[], by simp, List.nodup_nil, by simp [seeAll, hid]⟩
  | cons x xs ih =>
    obtain ⟨new, hnew, hnodup, heq⟩ := ih (f.see x.1 x.2)
    -- the first sighting may add one more, which the others load too
    let added : List Instance := if f.knows x.2.record.id then [] else [.new x.2.record.id x.1 x.2.state]
    have hadded : ∀ i ∈ added, ¬f.knows i.id = true ∧ i.id = x.2.record.id := by
      intro i hi
      by_cases h : f.knows x.2.record.id = true
      · simp [added, h] at hi
      · have : i = .new x.2.record.id x.1 x.2.state := by simpa [added, h] using hi
        rw [this]
        exact ⟨h, rfl⟩
    have hold : ∀ i ∈ new, i.id ≠ x.2.record.id := fun i hi he => (hnew i hi).1 (knows_see_iff.mpr (Or.inr he))
    have hsee : (f.see x.1 x.2).instances = (f.instances ++ added).map (loadOne x.2) := by
      by_cases h : f.knows x.2.record.id = true <;> simp [see, added, h, apply, update, loadOne]
    refine ⟨added ++ new, fun i hi => ?_, ?_, ?_⟩
    · rcases List.mem_append.mp hi with hi | hi
      · exact ⟨(hadded i hi).1, x, List.mem_cons_self, (hadded i hi).2⟩
      · obtain ⟨hk, y, hy, hid⟩ := hnew i hi
        exact ⟨fun h => hk (knows_see_iff.mpr (Or.inl h)), y, List.mem_cons_of_mem _ hy, hid⟩
    · have honce : (added.map Instance.id).Nodup := by
        by_cases h : f.knows x.2.record.id = true <;> simp [added, h]
      rw [List.map_append]
      refine List.nodup_append.mpr ⟨honce, hnodup, fun id hid other hother he => ?_⟩
      obtain ⟨i, hi, rfl⟩ := List.mem_map.mp hid
      obtain ⟨j, hj, rfl⟩ := List.mem_map.mp hother
      exact hold j hj (he ▸ (hadded i hi).2)
    · have hnewload : new.map (loadAll xs) = new.map (loadAll (x :: xs)) :=
        List.map_congr_left fun i hi => (loadAll_cons_of_ne (hold i hi)).symm
      calc ((f.see x.1 x.2).seeAll xs).instances
          = (((f.instances ++ added).map (loadOne x.2)) ++ new).map (loadAll xs) := by rw [heq, hsee]
        _ = (f.instances ++ added).map (loadAll (x :: xs)) ++ new.map (loadAll (x :: xs)) := by
            rw [List.map_append, hnewload, List.map_map]
            rfl
        _ = (f.instances ++ (added ++ new)).map (loadAll (x :: xs)) := by
            simp only [List.map_append, List.append_assoc]

/-- Sightings of known instances add none. -/
theorem instances_seeAll_of_knows {f : Fleet} {xs : List (Region × Observation)}
    (h : ∀ x ∈ xs, f.knows x.2.record.id = true) : (f.seeAll xs).instances = f.instances.map (loadAll xs) := by
  obtain ⟨new, hnew, -, heq⟩ := instances_seeAll f xs
  cases new with
  | nil => rw [heq, List.append_nil]
  | cons i new =>
    obtain ⟨hk, x, hx, hid⟩ := hnew i List.mem_cons_self
    rw [hid] at hk
    exact absurd (h x hx) hk

theorem images_seeAll (f : Fleet) (xs : List (Region × Observation)) : (f.seeAll xs).images = f.images := by
  induction xs generalizing f with
  | nil => rfl
  | cons x xs ih =>
    show ((f.see x.1 x.2).seeAll xs).images = _
    rw [ih]
    unfold see
    split <;> rfl

/-! ## Taking over and confirming -/

/-- The fleet after sightings were taken over, and the instances confirmed that are chosen then. -/
def taking (xs : List (Region × Observation)) (chosen : Fleet → List InstanceId) (f : Fleet) : Fleet :=
  (f.seeAll xs).confirmEach (chosen (f.seeAll xs))

/-- Whether an identifier is chosen depends on the instances of that identifier alone. -/
def ByIdentifier (chosen : Fleet → List InstanceId) : Prop :=
  ∀ f g id, (∀ i, i.id = id → (i ∈ f.instances ↔ i ∈ g.instances)) → (id ∈ chosen f ↔ id ∈ chosen g)

/-- The instance, confirmed if it is among the identifiers. -/
def confirmIf (ids : List InstanceId) (i : Instance) : Instance := if i.id ∈ ids then i.confirm else i

theorem instances_confirmEach (f : Fleet) (ids : List InstanceId) :
    (f.confirmEach ids).instances = f.instances.map (confirmIf ids) := rfl

/-- A confirmation is nothing but a new flag. -/
theorem confirmIf_eq (ids : List InstanceId) (i : Instance) : ∃ b, confirmIf ids i = { i with reachable := b } := by
  by_cases h : i.id ∈ ids
  · exact ⟨i.confirmable, by rw [confirmIf, if_pos h]; rfl⟩
  · exact ⟨i.reachable, by rw [confirmIf, if_neg h]⟩

@[simp] theorem id_confirmIf (ids : List InstanceId) (i : Instance) : (confirmIf ids i).id = i.id := by
  unfold confirmIf
  split <;> rfl

theorem entries_confirmEach (f : Fleet) (ids : List InstanceId) : (f.confirmEach ids).entries = f.entries := by
  simp only [entries, instances_confirmEach, List.map_map]
  refine List.map_congr_left fun i _ => ?_
  obtain ⟨b, hb⟩ := confirmIf_eq ids i
  simp [hb]

theorem knows_congr {f g : Fleet} (h : g.entries = f.entries) {id : InstanceId} :
    g.knows id = true ↔ f.knows id = true := by
  rw [knows_iff_mem_entries, knows_iff_mem_entries, h]

/-- After sightings and confirmations the same sightings find every instance as it was before the confirmations, if its
flag is cleared on the way, and as it is otherwise. -/
theorem loadAll_confirmIf {f : Fleet} {xs : List (Region × Observation)} {i : Instance}
    (hi : i ∈ (f.seeAll xs).instances) (ids : List InstanceId) :
    (Cleared xs i.id → loadAll xs (confirmIf ids i) = i)
      ∧ (¬Cleared xs i.id → loadAll xs (confirmIf ids i) = confirmIf ids i) := by
  obtain ⟨new, -, -, heq⟩ := instances_seeAll f xs
  rw [heq] at hi
  obtain ⟨j, -, rfl⟩ := List.mem_map.mp hi
  obtain ⟨b, hb⟩ := confirmIf_eq ids (loadAll xs j)
  rw [hb]
  refine ⟨fun h => ?_, fun h => ?_⟩
  · rw [id_loadAll] at h
    exact loadAll_of_cleared h (id_loadAll xs j) (region_loadAll xs j)
  · rw [id_loadAll] at h
    exact loadAll_again_of_not_cleared h b

theorem loadAll_confirmIf_eq_self {f : Fleet} {xs : List (Region × Observation)} {ids : List InstanceId} {i : Instance}
    (hi : i ∈ (f.seeAll xs).instances) (h : Cleared xs i.id ∨ i.id ∉ ids) : loadAll xs (confirmIf ids i) = i := by
  obtain ⟨hcleared, hkept⟩ := loadAll_confirmIf hi ids
  rcases h with h | h
  · exact hcleared h
  · by_cases hc : Cleared xs i.id
    · exact hcleared hc
    · rw [hkept hc, confirmIf, if_neg h]

/-- Confirming again, after the same sightings again, leaves an instance confirmed as it was, if whether it is chosen
does not change where the sightings lead back to what it was. -/
theorem confirmIf_again {f : Fleet} {xs : List (Region × Observation)} {ids again : List InstanceId} {i : Instance}
    (hi : i ∈ (f.seeAll xs).instances) (h : Cleared xs i.id ∨ i.id ∉ ids → (i.id ∈ again ↔ i.id ∈ ids)) :
    confirmIf again (loadAll xs (confirmIf ids i)) = confirmIf ids i := by
  by_cases hback : Cleared xs i.id ∨ i.id ∉ ids
  · rw [loadAll_confirmIf_eq_self hi hback]
    simp only [confirmIf, h hback]
  · rw [not_or, not_not] at hback
    have hconfirmed : confirmIf ids i = i.confirm := if_pos hback.2
    rw [(loadAll_confirmIf hi ids).2 hback.1, hconfirmed]
    by_cases hm : i.confirm.id ∈ again
    · rw [confirmIf, if_pos hm, confirm_confirm]
    · rw [confirmIf, if_neg hm]

/-- What is taken over and confirmed once is taken over and confirmed for good. -/
theorem taking_taking {chosen : Fleet → List InstanceId} (hchosen : ByIdentifier chosen)
    (xs : List (Region × Observation)) (f : Fleet) : taking xs chosen (taking xs chosen f) = taking xs chosen f := by
  generalize hg : f.seeAll xs = g
  have honce : taking xs chosen f = g.confirmEach (chosen g) := by rw [taking, hg]
  have hknown : ∀ x ∈ xs, (g.confirmEach (chosen g)).knows x.2.record.id = true := by
    intro x hx
    rw [knows_congr (entries_confirmEach g (chosen g)), ← hg]
    exact knows_seeAll (Or.inr ⟨x, hx, rfl⟩)
  generalize hg' : (g.confirmEach (chosen g)).seeAll xs = g'
  have hinstances : g'.instances = g.instances.map fun i => loadAll xs (confirmIf (chosen g) i) := by
    rw [← hg', instances_seeAll_of_knows hknown, instances_confirmEach, List.map_map]
    rfl
  -- where the sightings lead back to the instances of an identifier, it is chosen as it was
  have hsame : ∀ id, Cleared xs id ∨ id ∉ chosen g → (id ∈ chosen g' ↔ id ∈ chosen g) := by
    intro id h
    refine hchosen g' g id fun i hid => ?_
    have hself : ∀ j ∈ g.instances, j.id = id → loadAll xs (confirmIf (chosen g) j) = j := fun j hj hjid =>
      loadAll_confirmIf_eq_self (hg ▸ hj) (by rwa [hjid])
    rw [hinstances, List.mem_map]
    constructor
    · rintro ⟨j, hj, rfl⟩
      rw [hself j hj (by simpa using hid)]
      exact hj
    · exact fun hi => ⟨i, hi, hself i hi hid⟩
  have himages : g'.images = g.images := by
    rw [← hg', images_seeAll]
    rfl
  rw [honce, taking, hg']
  simp only [confirmEach, Fleet.mk.injEq]
  refine ⟨?_, himages⟩
  rw [hinstances, List.map_map]
  exact List.map_congr_left fun i hi => confirmIf_again (hg ▸ hi) (hsame i.id)

/-! ## Steady worlds -/

/-- What the world answers in one of its states. -/
def answerAt (w : World σ) (world : σ) (r : Request) : r.Reply := (w.answer r world).1

/-- The world always gives the same answer to the same inquiry: to a description, a report on health, a probe. -/
def Steady (w : World σ) : Prop := ∀ r : Request, r.inquires = true → ∀ x y : σ, answerAt w x r = answerAt w y r

/-- What comes of describing a group, if the answers are given. -/
def Attempt.expected (answer : (r : Request) → r.Reply) (group : Group) : Attempt :=
  match answer (.cloud (.describeInstances group.1 group.2)) with
  | .error e => .unlisted group e
  | .ok records =>
    match answer (.cloud (.describeStatuses group.1 group.2)) with
    | .error e => .unchecked group records e
    | .ok statuses => .described group records statuses

theorem Attempt.eq_expected {answer : (r : Request) → r.Reply} {a : Attempt}
    (h : ∀ x ∈ a.exchanges, x.2 = answer x.1) : a = Attempt.expected answer a.group := by
  cases a with
  | unlisted group e =>
    have hlisting := h _ List.mem_cons_self
    simp only at hlisting
    simp only [expected, Attempt.group, ← hlisting]
  | unchecked group records e =>
    have hlisting := h _ List.mem_cons_self
    have hhealth := h _ (List.mem_cons_of_mem _ List.mem_cons_self)
    simp only at hlisting hhealth
    simp only [expected, Attempt.group, ← hlisting, ← hhealth]
  | described group records statuses =>
    have hlisting := h _ List.mem_cons_self
    have hhealth := h _ (List.mem_cons_of_mem _ List.mem_cons_self)
    simp only at hlisting hhealth
    simp only [expected, Attempt.group, ← hlisting, ← hhealth]

theorem Attempt.inquires_of_mem_exchanges {a : Attempt} {x : (r : Request) × r.Reply} (h : x ∈ a.exchanges) :
    x.1.inquires = true := by
  cases a <;> simp only [exchanges, List.mem_cons, List.not_mem_nil, or_false] at h <;> grind [Request.inquires]

theorem eq_map_expected {answer : (r : Request) → r.Reply} {attempts : List Attempt}
    (h : ∀ x ∈ attempts.flatMap Attempt.exchanges, x.2 = answer x.1) :
    attempts = (attempts.map Attempt.group).map (Attempt.expected answer) := by
  induction attempts with
  | nil => rfl
  | cons a attempts ih =>
    have hfirst : a = Attempt.expected answer a.group :=
      Attempt.eq_expected fun x hx => h x (List.mem_flatMap.mpr ⟨a, List.mem_cons_self, hx⟩)
    have hrest := ih fun x hx => by
      obtain ⟨b, hb, hx⟩ := List.mem_flatMap.mp hx
      exact h x (List.mem_flatMap.mpr ⟨b, List.mem_cons_of_mem _ hb, hx⟩)
    rw [List.map_cons, List.map_cons, ← hfirst, ← hrest]

/-- The candidates whose probe is answered, if the answers are given. -/
def answeringIds (c : FleetConfig) (groups : List Group) (answer : (r : Request) → r.Reply) (f : Fleet) :
    List InstanceId :=
  ((f.candidates groups).filter fun x =>
    Connection.isOpen (answer (.probe x.2 c.probePort c.probeTimeout))).map Prod.fst

theorem byIdentifier_answeringIds (c : FleetConfig) (groups : List Group) (answer : (r : Request) → r.Reply) :
    ByIdentifier (answeringIds c groups answer) := by
  intro f g id h
  have hcandidate : ∀ address, (id, address) ∈ f.candidates groups ↔ (id, address) ∈ g.candidates groups := by
    intro address
    rw [mem_candidates_iff, mem_candidates_iff]
    constructor
    · rintro ⟨i, hi, hid, hi'⟩
      exact ⟨i, (h i hid).mp hi, hid, hi'⟩
    · rintro ⟨i, hi, hid, hi'⟩
      exact ⟨i, (h i hid).mpr hi, hid, hi'⟩
  simp [answeringIds, hcandidate]

theorem answering_eq {c : FleetConfig} {answer : (r : Request) → r.Reply} {candidates : List (InstanceId × String)}
    {connections : List Connection} (hlength : connections.length = candidates.length)
    (h : ∀ x ∈ probesOf c candidates connections, x.2 = answer x.1) :
    answering candidates connections = candidates.filter fun x =>
      Connection.isOpen (answer (.probe x.2 c.probePort c.probeTimeout)) := by
  induction candidates generalizing connections with
  | nil => rfl
  | cons candidate candidates ih =>
    cases connections with
    | nil => cases hlength
    | cons connection connections =>
      have hfirst : connection = answer (.probe candidate.2 c.probePort c.probeTimeout) := h _ List.mem_cons_self
      have hrest := ih (Nat.succ.inj hlength) fun x hx => h x (List.mem_cons_of_mem _ hx)
      simp only [answering, List.zip_cons_cons, List.filter_cons, ← hfirst] at hrest ⊢
      split
      · rw [List.map_cons, hrest]
      · exact hrest

theorem inquires_of_mem_probesOf {c : FleetConfig} {candidates : List (InstanceId × String)}
    {connections : List Connection} {x : (r : Request) × r.Reply} (h : x ∈ probesOf c candidates connections) :
    x.1.inquires = true := by
  rw [probesOf, ← List.map_uncurry_zip_eq_zipWith] at h
  obtain ⟨y, -, rfl⟩ := List.mem_map.mp h
  rfl

/-- What is known after no one was chosen is what was seen. -/
theorem taking_none (xs : List (Region × Observation)) (f : Fleet) : taking xs (fun _ => []) f = f.seeAll xs := by
  have : confirmIf [] = id := funext fun i => if_neg (by simp)
  simp [taking, confirmEach]

section Steady

variable {w : World σ}

/-- In a steady world the inquiries of a run have the answers that are given. -/
theorem Steady.answers {α : Type} (hw : Steady w) (world : σ) {p : FleetProgram α} {s t : Run Fleet σ}
    {ending : Ending FleetError α} (hrun : p.run w s = (ending, t)) {asked : List ((r : Request) × r.Reply)}
    (h : questions t.history = questions s.history ++ asked) :
    ∀ x ∈ asked, x.1.inquires = true → x.2 = answerAt w world x.1 := by
  intro x hx hinquires
  rw [show t = (p.run w s).2 by rw [hrun]] at h
  obtain ⟨y, hy⟩ := Program.answers_of_questions w p h x hx
  rw [hy]
  exact hw x.1 hinquires y world

/-- In a steady world what comes of describing groups is given. -/
theorem Steady.attempts {α : Type} (hw : Steady w) (world : σ) {p : FleetProgram α} {s t : Run Fleet σ}
    {ending : Ending FleetError α} (hrun : p.run w s = (ending, t)) {attempts : List Attempt}
    {later : List ((r : Request) × r.Reply)}
    (h : questions t.history = questions s.history ++ (attempts.flatMap Attempt.exchanges ++ later)) :
    attempts = (attempts.map Attempt.group).map (Attempt.expected (answerAt w world)) := by
  refine eq_map_expected fun x hx => hw.answers world hrun h x (List.mem_append_left _ hx) ?_
  obtain ⟨a, -, hxa⟩ := List.mem_flatMap.mp hx
  exact Attempt.inquires_of_mem_exchanges hxa

variable (c : FleetConfig) {groups : List Group} {target : Target}

/-- A halted refresh met the first state that is none. -/
theorem Halted.expected_eq (hw : Steady w) (world : σ) {before : List Attempt} {last : Attempt} {name : String}
    {s t : Run Fleet σ} {ending : Ending FleetError Unit} (hrun : (refresh c target).run w s = (ending, t))
    (h : Halted groups before last name s t) :
    ∃ later, groups.map (Attempt.expected (answerAt w world)) = before ++ last :: later := by
  have hasked := h.asks.questions_eq
  rw [← List.append_nil (List.flatMap _ _)] at hasked
  obtain ⟨later, hgroups⟩ := h.groups_prefix
  refine ⟨later.map (Attempt.expected (answerAt w world)), ?_⟩
  rw [← hgroups, List.map_append, ← hw.attempts world hrun hasked, List.append_assoc]
  rfl

/-- A refresh in a steady world whose states can all be read. -/
theorem refresh_of_steady_of_readable (hw : Steady w) (world : σ) {attempts : List Attempt}
    (hexpected : groups.map (Attempt.expected (answerAt w world)) = attempts)
    (hreadable : ∀ a ∈ attempts, a.unreadable? = none) {s : Run Fleet σ}
    (hgroups : groupsOf c s.own target = .ok groups) :
    ∃ t, (refresh c target).run w s = (if attempts.filterMap Attempt.failure? = [] then .returned ()
        else .failed (.provider (attempts.filterMap Attempt.failure?)), t)
      ∧ t.own = taking (attempts.flatMap Attempt.sightings) (answeringIds c groups (answerAt w world)) s.own
      ∧ ∃ connections, Refreshed c groups attempts connections s t := by
  rcases refreshed_or_halted w c s hgroups with ⟨tried, connections, t, hrun, h⟩ | ⟨before, last, name, t, hrun, h⟩
  · obtain rfl : tried = attempts := by rw [hw.attempts world hrun h.questions_eq, h.groups_eq, hexpected]
    have hconfirmed := answering_eq h.length_eq fun x hx =>
      hw.answers world hrun h.questions_eq x (List.mem_append_right _ hx) (inquires_of_mem_probesOf hx)
    refine ⟨t, hrun, ?_, connections, h⟩
    rw [h.own_eq, hconfirmed]
    rfl
  · obtain ⟨later, heq⟩ := h.expected_eq c hw world hrun
    have hlast := hreadable last (by rw [← hexpected, heq]; simp)
    rw [h.unreadable] at hlast
    cases hlast

/-- A refresh in a steady world with a state that is none. -/
theorem refresh_of_steady_of_unreadable (hw : Steady w) (world : σ) {attempts : List Attempt} {name : String}
    (hexpected : groups.map (Attempt.expected (answerAt w world)) = attempts)
    (hfind : attempts.findSome? Attempt.unreadable? = some name) {s : Run Fleet σ}
    (hgroups : groupsOf c s.own target = .ok groups) :
    ∃ t, (refresh c target).run w s = (.failed (.unknownState name), t)
      ∧ t.own = taking ((attempts.takeWhile fun a => a.unreadable?.isNone).flatMap Attempt.sightings) (fun _ => [])
        s.own := by
  rcases refreshed_or_halted w c s hgroups with ⟨tried, connections, t, hrun, h⟩ | ⟨before, last, name', t, hrun, h⟩
  · have htried : tried = attempts := by rw [hw.attempts world hrun h.questions_eq, h.groups_eq, hexpected]
    rw [← htried, List.findSome?_eq_none_iff.mpr h.readable] at hfind
    cases hfind
  · obtain ⟨later, heq⟩ := h.expected_eq c hw world hrun
    rw [hexpected] at heq
    have hname : name' = name := by
      rw [heq, List.findSome?_append, List.findSome?_eq_none_iff.mpr h.readable, List.findSome?_cons, h.unreadable]
        at hfind
      simpa using hfind
    have hbefore : (attempts.takeWhile fun a => a.unreadable?.isNone) = before := by
      rw [heq, List.takeWhile_append_of_pos fun a ha => by rw [h.readable a ha]; rfl,
        List.takeWhile_cons_of_neg (by rw [h.unreadable]; simp), List.append_nil]
    refine ⟨t, by rw [hrun, hname], ?_⟩
    rw [taking_none, hbefore, h.own_eq]
    rfl

/-- In a steady world a refresh of given groups ends in one way, takes over the same sightings, and chooses whom to
confirm in the same manner, whatever is known. -/
theorem refresh_of_steady (hw : Steady w) (groups : List Group) (target : Target) (world : σ) :
    ∃ ending xs chosen, ByIdentifier chosen ∧ ∀ s : Run Fleet σ, groupsOf c s.own target = .ok groups →
      ∃ t, (refresh c target).run w s = (ending, t) ∧ t.own = taking xs chosen s.own := by
  cases hfind : (groups.map (Attempt.expected (answerAt w world))).findSome? Attempt.unreadable? with
  | none =>
    exact ⟨_, _, _, byIdentifier_answeringIds c groups _, fun s hgroups =>
      (refresh_of_steady_of_readable c hw world rfl (List.findSome?_eq_none_iff.mp hfind) hgroups).imp fun _ h =>
        ⟨h.1, h.2.1⟩⟩
  | some name =>
    exact ⟨_, _, _, fun _ _ _ _ => Iff.rfl, fun s hgroups =>
      refresh_of_steady_of_unreadable c hw world rfl hfind hgroups⟩

end Steady

/-! ## Targets that stay what they are -/

/-- The groups of the target are the same in a fleet with more instances. -/
theorem groupsOf_of_more (c : FleetConfig) {f g : Fleet} {target : Target} {groups : List Group}
    (hnamed : target.named = true) (hmore : f.entries <+: g.entries) (h : groupsOf c f target = .ok groups) :
    groupsOf c g target = .ok groups := by
  have hmany : ∀ {is : Subset} {ids : List InstanceId}, f.lookupAll ids = .ok is →
      (g.lookupAll ids).map Subset.byRegion = .ok (Subset.byRegion is) := by
    intro is ids his
    obtain ⟨js, hjs, hentries⟩ := lookupAll_of_more hmore his
    rw [hjs, Except.map, byRegion_congr hentries]
  cases target with
  | all => exact h
  | id id =>
    cases hi : f.lookup id with
    | error e => simp [groupsOf, resolve, hi, Except.map] at h
    | ok i =>
      obtain ⟨j, hj, hentry⟩ := lookup_of_more hmore hi
      have hsame : Subset.byRegion [j] = Subset.byRegion [i] := byRegion_congr (by simp [hentry])
      simp only [groupsOf, resolve, hi, hj, Except.map, hsame] at h ⊢
      exact h
  | ids ids =>
    cases his : f.lookupAll (firstMentions ids) with
    | error e => simp [groupsOf, resolve, his, Except.map] at h
    | ok is =>
      simp only [groupsOf, resolve, his, Except.map] at h
      rw [← h]
      exact hmany his
  | subset s =>
    cases his : f.lookupAll s.ids with
    | error e => simp [groupsOf, resolve, his, Except.map] at h
    | ok is =>
      simp only [groupsOf, resolve, his, Except.map] at h
      rw [← h]
      exact hmany his
  | index i => cases hnamed
  | matching p => cases hnamed

/-! ## Refreshing twice -/

/-- In a world that always gives the same answers, a refresh right after another one ends as that one did, leaves the
fleet as it is, and announces no instance. -/
theorem refresh_refresh {w : World σ} (hw : Steady w) (c : FleetConfig) {target : Target} (hnamed : target.named = true)
    (s : Run Fleet σ) :
    ((refresh c target).run w ((refresh c target).run w s).2).1 = ((refresh c target).run w s).1
    ∧ ((refresh c target).run w ((refresh c target).run w s).2).2.own = ((refresh c target).run w s).2.own
    ∧ discoveries ((refresh c target).run w ((refresh c target).run w s).2).2.history
        = discoveries ((refresh c target).run w s).2.history := by
  cases hgroups : groupsOf c s.own target with
  | error e => simp only [refresh_unresolved w c hgroups, and_self]
  | ok groups =>
    obtain ⟨ending, xs, chosen, hchosen, hrefresh⟩ := refresh_of_steady c hw groups target s.world
    obtain ⟨t, hrun, hown⟩ := hrefresh s hgroups
    have hmore : s.own.entries <+: t.own.entries := by
      obtain ⟨new, -, ho⟩ := Program.run_history w (refresh c target) s
      rw [hrun] at ho
      rw [ho]
      exact entries_replay s.own new
    obtain ⟨u, hrun', hown'⟩ := hrefresh t (groupsOf_of_more c hnamed hmore hgroups)
    have hsame : u.own = t.own := by rw [hown', hown, taking_taking hchosen]
    have hannounced := (stable_announced w t).refresh c target t (.refl t)
    rw [hrun'] at hannounced
    obtain ⟨new, hh, hentries⟩ := hannounced
    rw [hsame] at hentries
    have hnone : discoveries new = [] := List.append_right_eq_self.mp hentries.symm
    rw [hrun]
    dsimp only
    rw [hrun']
    exact ⟨rfl, hsame, by rw [hh, discoveries_append, hnone, List.append_nil]⟩

/-! ## An instance that is listed twice -/

/-- A cloud in which one region lists an instance twice, first as stopped and then as running, and any other region
fails. Every probe is answered. -/
def flickeringCloud : World Unit where
  answer
    | .cloud (.describeInstances region _), _ =>
      (if region = ⟨"eu-west-3"⟩ then .ok [⟨"i-1", some "host-1", "stopped"⟩, ⟨"i-1", some "host-1", "running"⟩]
        else .error (.unknownRegion region), ())
    | .cloud (.describeStatuses ..), _ => (.ok [⟨"i-1", some "ok"⟩], ())
    | .probe .., _ => (.opened, ())
    | r, _ => (r.unanswered, ())

/-- What a refresh does that names one region twice, and one that fails. -/
def refreshFlickering (s : Run Fleet Unit) : Ending FleetError Unit × Run Fleet Unit :=
  (refresh { regions := [⟨"eu-west-3"⟩, ⟨"us-east-1"⟩, ⟨"eu-west-3"⟩] } .all).run flickeringCloud s

theorem refresh_refresh_flickering :
    Steady flickeringCloud ∧ Target.all.named = true
    ∧ ((refreshFlickering (fresh ())).2.own.get? "i-1").map Instance.reachable = some true
    ∧ (refreshFlickering (refreshFlickering (fresh ())).2).1 = (refreshFlickering (fresh ())).1
    ∧ (refreshFlickering (refreshFlickering (fresh ())).2).2.own = (refreshFlickering (fresh ())).2.own
    ∧ discoveries (refreshFlickering (refreshFlickering (fresh ())).2).2.history
        = discoveries (refreshFlickering (fresh ())).2.history := by
  have hsteady : Steady flickeringCloud := fun r _ x y => rfl
  exact ⟨hsteady, rfl, by decide +kernel, refresh_refresh hsteady _ rfl (fresh ())⟩

end Fleet

end CloudFleet
