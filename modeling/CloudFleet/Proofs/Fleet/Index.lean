import CloudFleet.Proofs.Fleet.Observing
import Mathlib.Data.List.Basic

/-!
# The registry as an order and a table

A registry can be kept in two structures, an order of identifiers and a table of instances by identifier. `Index.apply`
is what each change does to them; it has no result where an instance would be loaded that is not in the table, or is
there under another identifier than its own. An index `Shows` a fleet if its order has no repetition, its keys are
those of the table, every instance is under its own identifier, and what the order lists is the fleet.

The changes that a fleet's operations make keep the two structures in step (`Index.Shows.apply`), and the announcements
in step with the order (`stable_inStep`). Main statement, for every run: `order_table_and_announcements_agree`.
-/

set_option autoImplicit false

namespace CloudFleet

variable {σ : Type}

namespace Fleet

/-- An order of identifiers beside a table of instances. -/
structure Index where
  order : List InstanceId
  table : InstanceId → Option Instance

namespace Index

/-- The index of a fleet without instances. -/
def empty : Index := ⟨[], fun _ => none⟩

/-- The index with an instance that is put at the end of the order, unless its identifier is taken. -/
def register (x : Index) (i : Instance) : Index :=
  if (x.table i.id).isSome then x
  else ⟨x.order ++ [i.id], fun id => if id = i.id then some i else x.table id⟩

/-- The index with one entry of the table updated, if it is there. -/
def update (x : Index) (id : InstanceId) (g : Instance → Instance) : Index :=
  { x with table := fun k => if k = id then (x.table k).map g else x.table k }

/-- The index after a change; none if the instance to be loaded is missing or is another one. -/
def apply (x : Index) : Change → Option Index
  | .added id region state => some (x.register (.new id region state))
  | .loaded record state status =>
    match x.table record.id with
    | some i => if i.id = record.id then some (x.update record.id fun i => i.load record state status) else none
    | none => none
  | .entered id state => some (x.update id fun i => i.enter state)
  | .confirmed id => some (x.update id Instance.confirm)
  | .imageFound .. => some x

/-- The index after all that happened. -/
def follow (x : Index) : List (Happening Fleet) → Option Index
  | [] => some x
  | .asked .. :: h => x.follow h
  | .changed c :: h => (x.apply c).bind fun y => y.follow h

theorem follow_append (x : Index) (h k : List (Happening Fleet)) :
    x.follow (h ++ k) = (x.follow h).bind fun y => y.follow k := by
  induction h generalizing x with
  | nil => rfl
  | cons happening h ih =>
    cases happening with
    | asked r reply => exact ih x
    | changed c =>
      simp only [List.cons_append, follow, Option.bind_assoc]
      exact Option.bind_congr fun y _ => ih y

/-! ## What an index shows -/

/-- The index is in order, and what it lists is the fleet. -/
structure Shows (x : Index) (f : Fleet) : Prop where
  /-- No identifier occurs twice in the order. -/
  nodup : x.order.Nodup
  /-- The order holds exactly the keys of the table. -/
  keys : ∀ id, id ∈ x.order ↔ (x.table id).isSome
  /-- Every instance is under its own identifier. -/
  own : ∀ id i, x.table id = some i → i.id = id
  listing : f.instances = x.order.filterMap x.table

theorem shows_empty : empty.Shows {} := ⟨List.nodup_nil, by simp [empty], by simp [empty], rfl⟩

namespace Shows

variable {x : Index} {f : Fleet}

theorem ids_eq (h : x.Shows f) : f.instances.map Instance.id = x.order := by
  -- every key of the order is in the table, under which the instance has that identifier
  have hid : ∀ id ∈ x.order, (x.table id).map Instance.id = some id := by
    intro id hm
    obtain ⟨i, hi⟩ := Option.isSome_iff_exists.mp ((h.keys id).mp hm)
    rw [hi, Option.map_some, h.own id i hi]
  rw [h.listing, List.map_filterMap]
  calc x.order.filterMap (fun id => (x.table id).map Instance.id)
      = x.order.filterMap some := List.filterMap_congr hid
    _ = x.order := List.filterMap_some

theorem ids_nodup (h : x.Shows f) : (f.instances.map Instance.id).Nodup := by
  rw [h.ids_eq]
  exact h.nodup

/-- The table finds what the fleet finds. -/
theorem get?_eq (h : x.Shows f) (id : InstanceId) : f.get? id = x.table id := by
  cases ht : x.table id with
  | some i =>
    have hm : i ∈ f.instances := by
      rw [h.listing]
      exact List.mem_filterMap.mpr ⟨id, (h.keys id).mpr (by simp [ht]), ht⟩
    have := get?_of_mem h.ids_nodup hm
    rwa [h.own id i ht] at this
  | none =>
    cases hg : f.get? id with
    | none => rfl
    | some i =>
      obtain ⟨hm, hid⟩ := mem_of_get? hg
      have : id ∈ x.order := by
        rw [← h.ids_eq, ← hid]
        exact List.mem_map.mpr ⟨i, hm, rfl⟩
      simp [h.keys, ht] at this

theorem knows_eq (h : x.Shows f) (id : InstanceId) : f.knows id = (x.table id).isSome := by
  rw [knows, h.get?_eq]

/-- An instance with a new identifier goes to the end of both. -/
theorem register (h : x.Shows f) {i : Instance} (hk : ¬f.knows i.id = true) :
    (x.register i).Shows { f with instances := f.instances ++ [i] } := by
  have hnone : x.table i.id = none := by simpa [h.knows_eq] using hk
  have hnot : i.id ∉ x.order := by simp [h.keys, hnone]
  have hne : ∀ id ∈ x.order, id ≠ i.id := fun id hm he => hnot (he ▸ hm)
  rw [Index.register, if_neg (by simp [hnone])]
  refine ⟨?_, fun id => ?_, fun id j hj => ?_, ?_⟩
  · exact List.nodup_append.mpr ⟨h.nodup, by simp, by simpa using hne⟩
  · by_cases he : id = i.id
    · simp [he]
    · simp [he, h.keys]
  · by_cases he : id = i.id
    · simp only [he, if_true, Option.some.injEq] at hj
      rw [← hj, he]
    · simp only [he, if_false] at hj
      exact h.own id j hj
  · have hold : x.order.filterMap x.table
        = x.order.filterMap fun id => if id = i.id then some i else x.table id :=
      List.filterMap_congr fun id hm => (if_neg (hne id hm)).symm
    dsimp only
    rw [List.filterMap_append, h.listing, hold]
    simp

/-- An update that leaves identities alone does the same to both. -/
theorem update (h : x.Shows f) (id : InstanceId) {g : Instance → Instance} (hg : ∀ i, (g i).id = i.id) :
    (x.update id g).Shows (f.update id g) := by
  refine ⟨h.nodup, fun k => ?_, fun k i hi => ?_, ?_⟩
  · rw [Index.update]
    by_cases he : k = id <;> simp [he, h.keys]
  · by_cases he : k = id
    · simp only [Index.update, he, if_true] at hi
      obtain ⟨j, hj, rfl⟩ := Option.map_eq_some_iff.mp hi
      rw [hg, he]
      exact h.own id j hj
    · simp only [Index.update, he, if_false] at hi
      exact h.own k i hi
  · simp only [Fleet.update, h.listing, List.map_filterMap]
    refine List.filterMap_congr fun k _ => ?_
    cases ht : x.table k with
    | none => simp [Index.update, ht]
    | some i =>
      have hi := h.own k i ht
      by_cases he : k = id
      · simp [Index.update, ← he, ht, hi]
      · simp [Index.update, he, ht, hi]

/-- A change keeps the structures in step, if it adds only what is unknown and loads only what is known. -/
theorem apply (h : x.Shows f) (c : Change) (hadd : ∀ id region state, c = .added id region state → ¬f.knows id = true)
    (hload : ∀ record state status, c = .loaded record state status → f.knows record.id = true) :
    ∃ y, x.apply c = some y ∧ y.Shows (f.apply c) := by
  cases c with
  | added id region state => exact ⟨_, rfl, h.register (i := .new id region state) (hadd id region state rfl)⟩
  | loaded record state status =>
    have hk := hload record state status rfl
    rw [h.knows_eq] at hk
    obtain ⟨i, hi⟩ := Option.isSome_iff_exists.mp hk
    refine ⟨_, ?_, h.update record.id fun _ => by simp⟩
    simp [Index.apply, hi, h.own _ i hi]
  | entered id state => exact ⟨_, rfl, h.update id fun _ => by simp⟩
  | confirmed id => exact ⟨_, rfl, h.update id fun _ => by simp⟩
  | imageFound region image => exact ⟨_, rfl, ⟨h.nodup, h.keys, h.own, h.listing⟩⟩

end Shows

end Index

/-! ## Announcements -/

/-- The instances announced as seen for the first time, in the order of their announcements. -/
def discoveries (h : List (Happening Fleet)) : List (InstanceId × Region) := (requests h).filterMap Request.discovery?

theorem discoveries_append (h k : List (Happening Fleet)) : discoveries (h ++ k) = discoveries h ++ discoveries k := by
  simp [discoveries]

theorem discoveries_asked {r : Request} (hr : r.discovery? = none) (reply : r.Reply) :
    discoveries [.asked r reply] = [] := by
  simp [discoveries, requests, exchanges, hr]

theorem discoveries_changed (c : Change) : discoveries [.changed c] = [] := rfl

/-- What is announced as seen for the first time since the first run is what was added since. -/
def Announced (s t : Run Fleet σ) : Prop :=
  ∃ new, t.history = s.history ++ new ∧ t.own.entries = s.own.entries ++ discoveries new

namespace Announced

variable {s t : Run Fleet σ}

theorem refl (s : Run Fleet σ) : Announced s s := ⟨[], by simp, (List.append_nil _).symm⟩

theorem ask (h : Announced s t) (w : World σ) {r : Request} (hr : r.discovery? = none) : Announced s (t.ask w r) := by
  obtain ⟨new, hh, hentries⟩ := h
  refine ⟨new ++ [.asked r (t.reply w r)], by simp [hh], ?_⟩
  rw [discoveries_append, discoveries_asked hr, List.append_nil]
  exact hentries

theorem change (h : Announced s t) {c : Change} (hc : ∀ id region state, c ≠ .added id region state) :
    Announced s (t.change c) := by
  obtain ⟨new, hh, hentries⟩ := h
  refine ⟨new ++ [.changed c], by simp [hh], ?_⟩
  rw [discoveries_append, discoveries_changed, List.append_nil, ← hentries]
  exact entries_of_not_added t.own hc

theorem listed (h : Announced s t) (w : World σ) (region : Region) (o : Observation) :
    Announced s (listed w region o t) := by
  by_cases hk : t.own.knows o.record.id = true
  · rw [listed_of_knows w region hk]
    exact h
  · rw [listed_of_not_knows w region hk]
    obtain ⟨new, hh, hentries⟩ := h
    refine ⟨new ++ [.asked (.announce (.discovered o.record.id region)) (),
      .changed (Change.added o.record.id region o.state)], by simp [hh, Run.reply], ?_⟩
    have hadded : (t.own.apply (.added o.record.id region o.state)).entries
        = t.own.entries ++ [(o.record.id, region)] := entries_apply _ _
    rw [discoveries_append, ← List.append_assoc, ← hentries]
    exact hadded

/-- If all was announced before, all is. -/
theorem discoveries_eq (h : Announced s t) (hs : discoveries s.history = s.own.entries) :
    discoveries t.history = t.own.entries := by
  obtain ⟨new, hh, hentries⟩ := h
  rw [hh, discoveries_append, hs, hentries]

end Announced

theorem stable_announced (w : World σ) (s : Run Fleet σ) : Stable w (Announced s) where
  asked _ _ hr _ ht := ht.ask w hr
  observed region o t ht := by
    rw [run_observe]
    exact (ht.listed w region o).change (by simp)
  moved _ _ _ ht := ht.change (by simp)
  probed := keeps_probeRunning (fun _ _ hr _ ht => ht.ask w hr) fun _ _ ht => ht.change (by simp)
  imaged _ _ _ ht := ht.change (by simp)

/-- An index can be made of what happened that shows what is remembered, and every entry was announced. -/
structure InStep (s : Run Fleet σ) : Prop where
  index : ∃ x, Index.empty.follow s.history = some x ∧ x.Shows s.own
  announced : discoveries s.history = s.own.entries

namespace InStep

variable {s : Run Fleet σ}

theorem fresh (world : σ) : InStep (Fleet.fresh world) := ⟨⟨_, rfl, Index.shows_empty⟩, rfl⟩

theorem ask (w : World σ) (hs : InStep s) {r : Request} (hr : r.discovery? = none) : InStep (s.ask w r) := by
  obtain ⟨x, hx, hshow⟩ := hs.index
  refine ⟨⟨x, ?_, hshow⟩, ((Announced.refl s).ask w hr).discoveries_eq hs.announced⟩
  rw [Run.history_ask, Index.follow_append, hx]
  rfl

/-- A change that adds nothing, and loads nothing unknown, keeps all in step. -/
theorem change (hs : InStep s) (c : Change) (hadd : ∀ id region state, c ≠ .added id region state)
    (hload : ∀ record state status, c = .loaded record state status → s.own.knows record.id = true) :
    InStep (s.change c) := by
  obtain ⟨x, hx, hshow⟩ := hs.index
  obtain ⟨y, hy, hshow'⟩ := hshow.apply c (fun id region state he => absurd he (hadd id region state)) hload
  refine ⟨⟨y, ?_, hshow'⟩, ((Announced.refl s).change hadd).discoveries_eq hs.announced⟩
  simp [Index.follow_append, hx, Index.follow, hy]

/-- Announcing and adding an unknown instance keeps all in step. -/
theorem listed (w : World σ) (region : Region) (o : Observation) (hs : InStep s) : InStep (listed w region o s) := by
  refine ⟨?_, ((Announced.refl s).listed w region o).discoveries_eq hs.announced⟩
  obtain ⟨x, hx, hshow⟩ := hs.index
  by_cases hk : s.own.knows o.record.id = true
  · rw [listed_of_knows w region hk]
    exact ⟨x, hx, hshow⟩
  · rw [listed_of_not_knows w region hk]
    refine ⟨_, ?_, hshow.register (i := .new o.record.id region o.state) hk⟩
    simp [Index.follow_append, hx, Index.follow, Index.apply]

end InStep

/-- Every operation on a fleet keeps order, table and announcements in step. -/
theorem stable_inStep (w : World σ) : Stable w InStep where
  asked _ _ hr _ hs := hs.ask w hr
  observed region o s hs := by
    rw [run_observe]
    refine (hs.listed w region o).change _ (by simp) fun record state status he => ?_
    cases he
    exact knows_listed w region o s
  moved s id kind hs := hs.change _ (by simp) (by simp)
  probed := keeps_probeRunning (fun _ _ hr _ hs => hs.ask w hr) fun _ _ hs => hs.change _ (by simp) (by simp)
  imaged s region image hs := hs.change _ (by simp) (by simp)

theorem inStep_runAll (w : World σ) (c : FleetConfig) (world : σ) (os : List (Nat × Operation)) :
    InStep (runAll w c (fresh world) os) :=
  (stable_inStep w).runAll (fun _ _ hr hs => hs.ask w (Request.discovery?_of_commits hr)) c os (InStep.fresh world)

/-- After any operations, in any world and however they end, the order and the table that were kept in step with all
that happened show the fleet, no instance was ever loaded into another one, and the announcements are the entries in
their order. Whatever operations follow, these entries stay the first ones, and no instance leaves its region. -/
theorem order_table_and_announcements_agree (w : World σ) (c : FleetConfig) (world : σ)
    (os more : List (Nat × Operation)) :
    (∃ x, Index.empty.follow (runAll w c (fresh world) os).history = some x
      ∧ x.order.Nodup
      ∧ (∀ id, id ∈ x.order ↔ (x.table id).isSome)
      ∧ (∀ id i, x.table id = some i → i.id = id)
      ∧ (runAll w c (fresh world) os).own.instances.map Instance.id = x.order
      ∧ ∀ id, (runAll w c (fresh world) os).own.get? id = x.table id)
    ∧ discoveries (runAll w c (fresh world) os).history = (runAll w c (fresh world) os).own.entries
    ∧ (runAll w c (fresh world) os).own.entries <+: (runAll w c (fresh world) (os ++ more)).own.entries
    ∧ ∀ id i, (runAll w c (fresh world) os).own.get? id = some i →
        ∃ j, (runAll w c (fresh world) (os ++ more)).own.get? id = some j ∧ j.id = id ∧ j.region = i.region := by
  obtain ⟨⟨x, hx, hshow⟩, hann⟩ := inStep_runAll w c world os
  obtain ⟨⟨y, hy, hshow'⟩, hann'⟩ := inStep_runAll w c world (os ++ more)
  have hgrow : (runAll w c (fresh world) os).own.entries <+: (runAll w c (fresh world) (os ++ more)).own.entries := by
    obtain ⟨new, _, ho⟩ := history_runAll w c more (runAll w c (fresh world) os)
    rw [runAll_append, ho]
    exact entries_replay _ new
  refine ⟨⟨x, hx, hshow.nodup, hshow.keys, hshow.own, hshow.ids_eq, hshow.get?_eq⟩, hann, hgrow, fun id i hi => ?_⟩
  obtain ⟨hm, hid⟩ := mem_of_get? hi
  have hentry : (id, i.region) ∈ (runAll w c (fresh world) (os ++ more)).own.entries :=
    hgrow.subset (List.mem_map.mpr ⟨i, hm, by rw [hid]⟩)
  obtain ⟨j, hj, he⟩ := List.mem_map.mp hentry
  obtain ⟨rfl, hregion⟩ := Prod.mk.inj he
  exact ⟨j, get?_of_mem hshow'.ids_nodup hj, rfl, hregion⟩

end Fleet

end CloudFleet
