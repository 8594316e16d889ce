import CloudFleet.Proofs.Fleet.Preconditions
import CloudFleet.Proofs.Fleet.Scope

/-!
# What a target resolves to

The registry is an order of identifiers beside a table of instances (`Index`); a target resolves to what the table has
now, in the order that the target gives: that of the registry for all instances and for those with a property, that of
the first mentions for identifiers, that of an earlier subset for the subset. A position counts from either end
(`position?_of_nonneg`, `position?_of_neg`).

A subset is genuine if its instances are those of the registry, no two under one identifier (`Genuine`). Whatever the
registry hands out is genuine, and so is whatever its operations return, in the registry as it is in the end: all of
them read their targets again last (`genuine_reread`). This is where a target must not name an instance twice, which
only a subset could do (`Target.Distinct`).

Main statement, for every registry that operations can lead to: `targets_name_current_instances`.
-/

set_option autoImplicit false

namespace CloudFleet

variable {σ : Type}

namespace Fleet

open Program (Ensures)

/-! ## Positions -/

section Positions

variable {size : Nat} {i : Int}

/-- From the start. -/
theorem position?_of_nonneg (h : 0 ≤ i) (hlt : i < size) : position? size i = some i.toNat := by
  have hnat : i.toNat < size := by omega
  rw [position?, if_neg (by omega), if_pos hnat]

/-- From the end. -/
theorem position?_of_neg (h : i < 0) (hle : -(size : Int) ≤ i) : position? size i = some (size + i).toNat := by
  have hnat : i.natAbs ≤ size := by omega
  have hsame : size - i.natAbs = (size + i).toNat := by omega
  rw [position?, if_pos h, if_pos hnat, hsame]

end Positions

/-! ## The registry as an order and a table -/

namespace Index

variable {x : Index} {f : Fleet}

/-- The instances are the entries of the table, in the order. -/
theorem Shows.instances_eq (h : x.Shows f) : f.instances.map some = x.order.map x.table := by
  rw [← h.ids_eq, List.map_map]
  refine List.map_congr_left fun i hi => ?_
  have hget := get?_of_mem h.ids_nodup hi
  rw [h.get?_eq] at hget
  exact hget.symm

/-- The instance at a position is the entry of the identifier there. -/
theorem Shows.at_position (h : x.Shows f) {i : Int} {n : Nat} (hn : position? f.size i = some n) :
    ∃ id j, x.order[n]? = some id ∧ x.table id = some j ∧ f.resolve (.index i) = .ok [j] := by
  have hlt : n < f.instances.length := lt_of_position? hn
  have hj : f.instances[n]? = some f.instances[n] := List.getElem?_eq_getElem hlt
  refine ⟨f.instances[n].id, f.instances[n], ?_, ?_, ?_⟩
  · rw [← h.ids_eq, List.getElem?_map, hj]
    rfl
  · rw [← h.get?_eq]
    exact get?_of_mem h.ids_nodup (List.getElem_mem hlt)
  · rw [resolve, hn, Option.bind_some, hj]

theorem Shows.lookupAll_eq_ok_iff (h : x.Shows f) {ids : List InstanceId} {is : Subset} :
    f.lookupAll ids = .ok is ↔ ids.map x.table = is.map some := by
  rw [Fleet.lookupAll_eq_ok_iff, funext h.get?_eq]

theorem Shows.lookupAll_eq_error_iff (h : x.Shows f) {ids : List InstanceId} {e : FleetError} :
    f.lookupAll ids = .error e
      ↔ ∃ id, ids.find? (fun id => (x.table id).isNone) = some id ∧ e = .notFound s!"id {id}" := by
  have hunknown : (fun id => !f.knows id) = fun id => (x.table id).isNone := by
    funext id
    rw [h.knows_eq, Option.not_isSome]
  rw [Fleet.lookupAll_eq_error_iff, hunknown]

theorem Shows.resolve_ids_eq_ok_iff (h : x.Shows f) {ids : List InstanceId} {is : Subset} :
    f.resolve (.ids ids) = .ok is ↔ ids.eraseDups.map x.table = is.map some := by
  rw [resolve, firstMentions_eq_eraseDups]
  exact h.lookupAll_eq_ok_iff

theorem Shows.resolve_ids_eq_error_iff (h : x.Shows f) {ids : List InstanceId} {e : FleetError} :
    f.resolve (.ids ids) = .error e
      ↔ ∃ id, ids.find? (fun id => (x.table id).isNone) = some id ∧ e = .notFound s!"id {id}" := by
  rw [resolve, h.lookupAll_eq_error_iff, find?_firstMentions]

theorem Shows.resolve_id_eq_ok_iff (h : x.Shows f) {id : InstanceId} {is : Subset} :
    f.resolve (.id id) = .ok is ↔ ∃ j, x.table id = some j ∧ is = [j] := by
  have hone : f.resolve (.id id) = .ok is ↔ ∃ j, f.lookup id = .ok j ∧ is = [j] := by
    rw [resolve]
    cases f.lookup id <;> simp [Except.map, eq_comm]
  simp only [hone, lookup_eq_ok_iff, h.get?_eq]

theorem Shows.resolve_id_eq_error_iff (h : x.Shows f) {id : InstanceId} {e : FleetError} :
    f.resolve (.id id) = .error e ↔ x.table id = none ∧ e = .notFound s!"id {id}" := by
  have hone : f.resolve (.id id) = .error e ↔ f.lookup id = .error e := by
    rw [resolve]
    cases f.lookup id <;> simp [Except.map]
  rw [hone, lookup_eq_error_iff, h.knows_eq, Option.isSome_eq_false_iff, Option.isNone_iff_eq_none]

/-- Whatever a target resolves to is what the table has now. -/
theorem Shows.current_of_resolve (h : x.Shows f) {target : Target} {is : Subset} (hok : f.resolve target = .ok is) :
    ∀ i ∈ is, x.table i.id = some i := by
  intro i hi
  rw [← h.get?_eq]
  exact get?_of_mem h.ids_nodup (mem_of_resolve hok hi)

end Index

/-! ## Genuine subsets -/

/-- The instances are those of the registry, no two under one identifier. -/
structure Genuine (f : Fleet) (sub : Subset) : Prop where
  current : ∀ i ∈ sub, f.get? i.id = some i
  distinct : sub.ids.Nodup

section Genuine

variable {f : Fleet}

theorem genuine_nil (f : Fleet) : Genuine f [] := ⟨by simp, List.nodup_nil⟩

theorem genuine_filter (hn : (f.instances.map Instance.id).Nodup) (p : Instance → Bool) : Genuine f (f.filter p) :=
  ⟨fun _ hi => get?_of_mem hn (List.mem_filter.mp hi).1, hn.sublist (List.filter_sublist.map _)⟩

theorem genuine_byRegion (hn : (f.instances.map Instance.id).Nodup) : ∀ group ∈ f.byRegion, Genuine f group.2 := by
  intro group hgroup
  obtain ⟨region, -, rfl⟩ := List.mem_map.mp hgroup
  exact genuine_filter hn _

theorem genuine_resolve (hn : (f.instances.map Instance.id).Nodup) {target : Target} (hdistinct : target.Distinct)
    {is : Subset} (h : f.resolve target = .ok is) : Genuine f is :=
  ⟨fun _ hi => get?_of_mem hn (mem_of_resolve h hi), nodup_of_resolve hn hdistinct h⟩

/-- The instances of a genuine subset, read again, make a genuine one. -/
theorem genuine_reread (w : World σ) {targets : Subset} (hdistinct : targets.ids.Nodup) (s : Run Fleet σ) :
    Ensures w (reread targets) s (fun sub t => Genuine t.own sub) fun _ _ => True := by
  refine .consult (.ofExcept (fun sub hsub => ?_) fun _ _ => trivial)
  exact ⟨fun _ hi => get?_of_mem_lookupAll hsub hi, (ids_lookupAll hsub).symm ▸ hdistinct⟩

/-- The targets of an operation are looked up first. -/
theorem targetsOr_ensures (w : World σ) (target : Option Target) (default : Fleet → Subset) (s : Run Fleet σ) :
    Ensures w (targetsOr target default) s (fun targets _ => s.own.chosen target default = .ok targets)
      fun _ _ => True := by
  have hrun := run_targetsOr w target default s
  cases hchosen : s.own.chosen target default with
  | error e =>
    rw [hchosen] at hrun
    exact .of_run_failed hrun trivial
  | ok targets =>
    rw [hchosen] at hrun
    exact .of_run hrun rfl

variable (w : World σ) (c : FleetConfig) (patience : Nat)

theorem genuine_transiting (kind : Transition) {s : FleetRun σ} {target : Option Target} (dryRun : Bool)
    (hdistinct : ∀ given ∈ target, given.Distinct) :
    Ensures w (transiting c patience kind target dryRun) s.toRun (fun sub t => Genuine t.own sub) fun _ _ => True := by
  rw [transiting_eq]
  refine (targetsOr_ensures w target kind.default s.toRun).bind fun targets t hchosen => ?_
  have htargets := nodup_of_chosen s.distinct (nodup_default s.distinct kind) hdistinct hchosen
  refine (Ensures.anyhow _).bind fun _ u _ => (Ensures.anyhow _).bind fun _ v _ => ?_
  unfold arriving
  split
  · exact genuine_reread w htargets v
  · exact (Ensures.anyhow _).bind fun _ _ _ => genuine_reread w htargets _

theorem genuine_waitForStartup {s : FleetRun σ} {target : Option Target}
    (hdistinct : ∀ given ∈ target, given.Distinct) :
    Ensures w (waitForStartup c patience target) s.toRun (fun sub t => Genuine t.own sub) fun _ _ => True := by
  refine (targetsOr_ensures w target _ s.toRun).bind fun targets t hchosen => ?_
  have htargets := nodup_of_chosen s.distinct (genuine_filter s.distinct _).distinct hdistinct hchosen
  exact (Ensures.anyhow _).bind fun _ _ _ => genuine_reread w htargets _

/-- The instances launched are looked up by their identifiers, so once each, and read again last. -/
theorem genuine_create (plan : Plan) (dryRun : Bool) (s : Run Fleet σ) :
    Ensures w (create c patience plan dryRun) s
      (fun launch t => ∀ sub, launch = .launched sub → Genuine t.own sub) fun _ _ => True := by
  have hnone (t : Run Fleet σ) : ∀ sub, Launch.launched [] = .launched sub → Genuine t.own sub := by
    intro sub he
    cases he
    exact genuine_nil _
  refine (Ensures.anyhow _).bind fun _ _ _ => (Ensures.anyhow _).bind fun _ _ _ => .consult ?_
  dsimp only
  split
  · exact .crash
  · refine .ask ?_
    split
    · exact .pure (hnone _)
    · refine (Ensures.anyhow _).bind fun _ _ _ => .ask ?_
      split
      · refine (Ensures.anyhow _).bind fun found _ _ => (Ensures.anyhow _).bind fun _ _ _ => ?_
        split
        · exact .pure (hnone _)
        · refine (Ensures.anyhow _).bind fun _ t _ => .consult ?_
          have hfound : Ensures w (Program.ofExcept (t.own.resolve (.ids found.2)) : FleetProgram Subset) t
              (fun targets _ => targets.ids.Nodup) fun _ _ => True := by
            refine .ofExcept (fun targets htargets => ?_) fun _ _ => trivial
            rw [ids_lookupAll htargets, firstMentions_eq_eraseDups]
            exact nodup_eraseDups _
          refine hfound.bind fun targets _ hdistinct => (Ensures.anyhow _).bind fun _ u _ => ?_
          have hlast : Ensures w (reread targets >>= fun launched => pure (.launched launched) : FleetProgram Launch) u
              (fun launch t => ∀ sub, launch = .launched sub → Genuine t.own sub) fun _ _ => True := by
            refine (genuine_reread w hdistinct u).bind fun sub v hv => .pure fun sub' he => ?_
            cases he
            exact hv
          exact hlast
      · exact .ask (.pure fun _ he => by cases he)

end Genuine

/-- In a registry that operations can lead to, kept as an order and a table: all instances are the entries of the table
in the order, and a property picks from these; a position from 0 up counts from the start and a negative one from the
end, and every other one is out of range; identifiers are looked up once each in the order of their first mentions, one
identifier or an earlier subset as it is, and it fails exactly if one is unknown, for the first of these. What is found
is what the table has now. And with targets that name nobody twice, all subsets that the registry hands out or its
operations return are genuine. -/
theorem targets_name_current_instances (w : World σ) (c : FleetConfig) (world : σ) (os : List (Nat × Operation)) :
    let s := runAll w c (fresh world) os
    let resolve := s.own.resolve
    ∃ x, Index.empty.follow s.history = some x ∧ x.Shows s.own
      ∧ (∃ all, resolve .all = .ok all ∧ all.map some = x.order.map x.table
        ∧ ∀ p, resolve (.matching p) = .ok (all.filter p))
      ∧ (∀ i : Int, (0 ≤ i → i < s.own.size → ∃ id j, x.order[i.toNat]? = some id ∧ x.table id = some j
            ∧ resolve (.index i) = .ok [j])
          ∧ (i < 0 → -(s.own.size : Int) ≤ i → ∃ id j, x.order[(s.own.size + i).toNat]? = some id ∧ x.table id = some j
            ∧ resolve (.index i) = .ok [j])
          ∧ (i < -(s.own.size : Int) ∨ (s.own.size : Int) ≤ i →
            resolve (.index i) = .error (.indexOutOfRange i s.own.size)))
      ∧ (∀ ids is, resolve (.ids ids) = .ok is ↔ ids.eraseDups.map x.table = is.map some)
      ∧ (∀ ids e, resolve (.ids ids) = .error e
          ↔ ∃ id, ids.find? (fun id => (x.table id).isNone) = some id ∧ e = .notFound s!"id {id}")
      ∧ (∀ id is, resolve (.id id) = .ok is ↔ ∃ j, x.table id = some j ∧ is = [j])
      ∧ (∀ id e, resolve (.id id) = .error e ↔ x.table id = none ∧ e = .notFound s!"id {id}")
      ∧ (∀ (sub is : Subset), resolve (.subset sub) = .ok is ↔ sub.ids.map x.table = is.map some)
      ∧ (∀ (sub : Subset) e, resolve (.subset sub) = .error e
          ↔ ∃ id, sub.ids.find? (fun id => (x.table id).isNone) = some id ∧ e = .notFound s!"id {id}")
      ∧ (∀ target is, resolve target = .ok is → ∀ i ∈ is, x.table i.id = some i)
      ∧ (∀ target is, target.Distinct → resolve target = .ok is → Genuine s.own is)
      ∧ (∀ p, Genuine s.own (s.own.filter p)) ∧ (∀ group ∈ s.own.byRegion, Genuine s.own group.2)
      ∧ (∀ patience kind target dryRun sub t, (∀ given ∈ target, given.Distinct) →
        (transiting c patience kind target dryRun).run w s = (.returned sub, t) → Genuine t.own sub)
      ∧ (∀ patience target sub t, (∀ given ∈ target, given.Distinct) →
        (waitForStartup c patience target).run w s = (.returned sub, t) → Genuine t.own sub)
      ∧ ∀ patience plan dryRun sub t, (create c patience plan dryRun).run w s = (.returned (.launched sub), t) →
        Genuine t.own sub := by
  intro s resolve
  obtain ⟨⟨x, hfollow, hshow⟩, -⟩ := inStep_runAll w c world os
  let reached := (FleetRun.fresh world).runAll w c os
  have hn : (s.own.instances.map Instance.id).Nodup := reached.distinct
  refine ⟨x, hfollow, hshow, ⟨s.own.instances, rfl, hshow.instances_eq, fun p => rfl⟩, fun i => ⟨?front, ?back, ?out⟩,
    fun _ _ => hshow.resolve_ids_eq_ok_iff, fun _ _ => hshow.resolve_ids_eq_error_iff,
    fun _ _ => hshow.resolve_id_eq_ok_iff, fun _ _ => hshow.resolve_id_eq_error_iff,
    fun _ _ => hshow.lookupAll_eq_ok_iff, fun _ _ => hshow.lookupAll_eq_error_iff,
    fun _ _ => hshow.current_of_resolve, fun _ _ hdistinct => genuine_resolve hn hdistinct,
    genuine_filter hn, genuine_byRegion hn, ?moved, ?awaited, ?launched⟩
  case front =>
    intro h hlt
    exact hshow.at_position (position?_of_nonneg h hlt)
  case back =>
    intro h hle
    exact hshow.at_position (position?_of_neg h hle)
  case out =>
    intro hout
    exact resolve_eq_error_iff.mpr (.index hout)
  case moved =>
    intro patience kind target dryRun sub t hdistinct hrun
    exact (genuine_transiting w c patience kind (s := reached) dryRun hdistinct).of_returned hrun
  case awaited =>
    intro patience target sub t hdistinct hrun
    exact (genuine_waitForStartup w c patience (s := reached) hdistinct).of_returned hrun
  case launched =>
    intro patience plan dryRun sub t hrun
    exact (genuine_create w c patience plan dryRun s).of_returned hrun sub rfl

end Fleet

end CloudFleet
