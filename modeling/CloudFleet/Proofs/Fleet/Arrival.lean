import CloudFleet.Proofs.Fleet.Launching
import CloudFleet.Proofs.Fleet.Moving
import CloudFleet.Proofs.Fleet.Reachability

/-!
# What a call that succeeds guarantees

Waiting ends with its condition met (`pollUntil_ensures`), and a registry never loses an identifier, so what was awaited
can always be read again (`reread_ensures`). What is read then has arrived: where the instances are moved or awaited
(`moving_ensures`, `waitForStartup_ensures`), and where they are launched (`create_ensures`).

That reachable instances run, and were probed since they were moved, comes from the history: a flag that is up is
vouched for by a probe that nothing disturbed, and to be moved is a disturbance (`probedSince_of_vouched`).

Main statement, for every registry that operations can lead to: `successful_calls_have_arrived`.
-/

set_option autoImplicit false

namespace CloudFleet

variable {σ : Type}

/-- What an instance that is moved is waited for to be. -/
def Transition.awaits : Transition → Instance → Bool
  | start | reboot => Instance.reachable
  | stop => fun i => [.stopped, .terminated].contains i.state
  | terminate => fun i => [.terminated].contains i.state

/-- Where a transition leads to. -/
def Transition.Reached : Transition → Instance → Prop
  | start, i | reboot, i => i.state = .running ∧ i.reachable = true
  | stop, i => i.state = .stopped ∨ i.state = .terminated
  | terminate, i => i.state = .terminated

namespace Fleet

open Program (Ensures Keeps)

/-! ## What stays known -/

/-- The identifiers are known. -/
def Knows (ids : List InstanceId) (t : Run Fleet σ) : Prop := ∀ id ∈ ids, t.own.knows id = true

theorem stable_knows (w : World σ) (ids : List InstanceId) : Stable w (Knows ids) :=
  .of_steps (fun _ _ _ h => h) fun _ c h id hid => knows_replay (h id hid) [.changed c]

theorem knows_of_mem {targets : Subset} {t : Run Fleet σ} (h : ∀ i ∈ targets, i ∈ t.own.instances) :
    Knows targets.ids t := by
  intro id hid
  obtain ⟨i, hi, rfl⟩ := List.mem_map.mp hid
  exact knows_iff.mpr ⟨i, h i hi, rfl⟩

/-- Where the targets are found all follows from them; where they are not, that is the error. -/
theorem of_targetsOr {α : Type} {w : World σ} {target : Option Target} {default : Fleet → Subset}
    {f : Subset → FleetProgram α} {s : Run Fleet σ} {Q : Subset → α → Run Fleet σ → Prop}
    (h : ∀ targets, s.own.chosen target default = .ok targets →
      Ensures w (f targets) s (Q targets) fun e _ => e.missing = false) :
    Ensures w (targetsOr target default >>= f) s
      (fun a t => ∃ targets, s.own.chosen target default = .ok targets ∧ Q targets a t)
      fun e _ => e.missing = true → s.own.chosen target default = .error e := by
  have hrun := run_targetsOr w target default s
  cases hchosen : s.own.chosen target default with
  | error e =>
    rw [hchosen] at hrun
    exact .of_run_failed (Program.run_andThen_of_failed hrun _) fun _ => rfl
  | ok targets =>
    rw [hchosen] at hrun
    have htargets : Ensures w (targetsOr target default) s (fun ts u => ts = targets ∧ u = s)
        fun e _ => e.missing = false := .of_run hrun ⟨rfl, rfl⟩
    refine (htargets.bind (R := Q targets) fun ts u ⟨hts, hu⟩ => ?_).mono (fun _ _ ha => ⟨targets, rfl, ha⟩) ?_
    · subst hts hu
      exact h _ hchosen
    · intro e _ he hm
      rw [he] at hm
      cases hm

/-! ## Waiting -/

/-- A refresh finds its target, or that is how it fails. -/
theorem refresh_ensures (w : World σ) (c : FleetConfig) (target : Target) (s : Run Fleet σ) :
    Ensures w (refresh c target) s (fun _ _ => True)
      fun e _ => e.missing = true → groupsOf c s.own target = .error e := by
  cases hgroups : groupsOf c s.own target with
  | error e => exact .of_run_failed (refresh_unresolved w c hgroups) fun _ => rfl
  | ok groups =>
    rcases refreshed_or_halted w c s hgroups with ⟨attempts, -, t, hrun, -⟩ | ⟨-, -, name, t, hrun, -⟩
    · split at hrun
      · exact .of_run hrun trivial
      · exact .of_run_failed hrun fun h => by cases h
    · exact .of_run_failed hrun fun h => by cases h

theorem checkDeadline_ensures (w : World σ) (limit : Option Duration) (start : Duration) (s : Run Fleet σ) :
    Ensures w (checkDeadline limit start) s (fun _ _ => True) fun e _ => e.missing = false := by
  cases limit with
  | none => exact .pure trivial
  | some limit =>
    refine .ask ?_
    split
    · exact .raise rfl
    · exact .pure trivial

section Polling

variable {targets : Subset} {done : Fleet → Bool}

/-- Where the instances are known, a refresh of them fails for another reason than that they are missing. -/
theorem refresh_known (w : World σ) (c : FleetConfig) {s : Run Fleet σ} (hs : Knows targets.ids s) :
    Ensures w (refresh c (.subset targets)) s (fun _ _ => True) fun e _ => e.missing = false := by
  obtain ⟨is, his⟩ := lookupAll_of_knows hs
  refine (refresh_ensures w c (.subset targets) s).mono (fun _ _ h => h) fun e _ he => ?_
  have hok : groupsOf c s.own (.subset targets) = .ok (Subset.byRegion is) := by
    simp only [groupsOf, resolve, his, Except.map]
  by_contra hmissing
  have := he (by simpa using hmissing)
  rw [hok] at this
  cases this

theorem pollFrom_ensures (w : World σ) (c : FleetConfig) (limit : Option Duration) (start : Duration)
    (patience polls : Nat) {s : Run Fleet σ} (hs : Knows targets.ids s) :
    Ensures w (pollFrom c (.subset targets) limit done start patience polls) s (fun _ t => done t.own = true)
      fun e _ => e.missing = false := by
  induction patience generalizing polls s with
  | zero =>
    refine .consult ?_
    split
    · rename_i hdone
      exact .ask (.pure hdone)
    · exact (checkDeadline_ensures w limit start s).bind fun _ _ _ => .stall
  | succ patience ih =>
    refine .consult ?_
    split
    · rename_i hdone
      exact .ask (.pure hdone)
    · have hknown := stable_knows w targets.ids
      refine ((checkDeadline_ensures w limit start s).keeping (hknown.checkDeadline limit start) hs).bind
        fun _ t ht => .ask ?_
      refine ((refresh_known w c (s := t.ask w _) ht.2).keeping (hknown.refresh c _) ht.2).bind fun _ u hu => .ask ?_
      exact ih _ hu.2

/-- Waiting ends with the condition met. -/
theorem pollUntil_ensures (w : World σ) (c : FleetConfig) (patience : Nat) (limit : Option Duration) {s : Run Fleet σ}
    (hs : Knows targets.ids s) :
    Ensures w (pollUntil c patience (.subset targets) limit done) s (fun _ t => done t.own = true)
      fun e _ => e.missing = false :=
  .ask (pollFrom_ensures w c limit _ patience 0 hs)

end Polling

/-! ## Reading again -/

/-- What holds of all instances of some identifiers holds of those that are found under them. -/
theorem of_allOf {f : Fleet} {ids : List InstanceId} {p : Instance → Bool} (h : f.allOf ids p = true) {i : Instance}
    (hi : f.get? i.id = some i) (hid : i.id ∈ ids) : p i = true := by
  have := List.all_eq_true.mp h i.id hid
  rwa [hi] at this

/-- Known instances can always be read again, and what was awaited of all of them holds of those that are read. -/
theorem reread_ensures (w : World σ) {targets : Subset} {p : Instance → Bool} {s : Run Fleet σ}
    (hs : Knows targets.ids s) (hall : s.own.allOf targets.ids p = true) :
    Ensures w (reread targets) s
      (fun sub t => sub.ids = targets.ids ∧ ∀ i ∈ sub, t.own.get? i.id = some i ∧ p i = true) fun _ _ => False := by
  obtain ⟨is, his⟩ := lookupAll_of_knows hs
  refine .consult (.ofExcept (fun sub hsub => ?_) fun e he => ?_)
  · have hids := ids_lookupAll hsub
    refine ⟨hids, fun i hi => ?_⟩
    have hget := get?_of_mem_lookupAll hsub hi
    exact ⟨hget, of_allOf hall hget (hids ▸ List.mem_map_of_mem hi)⟩
  · have hok : s.own.resolve (.subset targets) = .ok is := his
    rw [hok] at he
    cases he

section Awaiting

variable {targets : Subset} {p : Instance → Bool} {s : Run Fleet σ}

theorem await_ensures (w : World σ) (c : FleetConfig) (patience : Nat) (hs : Knows targets.ids s) :
    Ensures w (pollUntil c patience (.subset targets) c.convergenceTimeout fun f => f.allOf targets.ids p) s
      (fun _ t => t.own.allOf targets.ids p = true ∧ Knows targets.ids t) fun e _ => e.missing = false :=
  (pollUntil_ensures w c patience _ hs).keeping ((stable_knows w targets.ids).pollUntil c patience _ _ _) hs

/-- Waiting for instances and reading them again gives them with what was awaited. -/
theorem await_reread_ensures (w : World σ) (c : FleetConfig) (patience : Nat) (hs : Knows targets.ids s) :
    Ensures w (do
        let _ ← pollUntil c patience (.subset targets) c.convergenceTimeout fun f => f.allOf targets.ids p
        reread targets : FleetProgram Subset) s
      (fun sub t => sub.ids = targets.ids ∧ ∀ i ∈ sub, t.own.get? i.id = some i ∧ p i = true)
      fun e _ => e.missing = false :=
  (await_ensures w c patience hs).bind fun _ _ ⟨hall, ht⟩ =>
    (reread_ensures w ht hall).unfailing

end Awaiting

/-! ## Probes since instances were moved -/

/-- After its region was called to move the instance, and agreed, the instance ran and its address answered a probe. -/
def ProbedSince (kind : Transition) (i : Instance) (start : Fleet) (h : List (Happening Fleet)) : Prop :=
  ∃ before between after ids address port limit,
    h = before ++ .asked (.cloud (.transition kind i.region ids false)) (.ok ())
      :: (between ++ .asked (.probe address port limit) .opened :: after)
    ∧ i.id ∈ ids
    ∧ ∃ j,
        (replay start (before ++ .asked (.cloud (.transition kind i.region ids false)) (.ok ()) :: between)).get? i.id
          = some j ∧ j.state = .running ∧ j.address = some address

/-- To be moved is a disturbance. -/
theorem disturbs_entered (f : Fleet) (id : InstanceId) (kind : Transition) :
    Change.Disturbs (.entered id kind.underWay) f id := by
  have hrun : kind.underWay ≠ .running := by cases kind <;> decide
  refine ⟨rfl, fun ⟨_, i, hi, hstate⟩ => ?_⟩
  obtain ⟨hm, hid⟩ := mem_of_get? hi
  obtain ⟨j, -, rfl⟩ := List.mem_map.mp hm
  by_cases hj : j.id = id
  · rw [if_pos hj] at hstate
    exact hrun hstate
  · rw [if_neg hj] at hid
    exact hj hid

/-- Two things that happened are one, or one came before the other. -/
theorem earlier_or_later {α : Type} {before before' after after' : List α} {a b : α}
    (h : before ++ a :: after = before' ++ b :: after') (hne : a ≠ b) :
    (∃ between, before' = before ++ a :: between ∧ after = between ++ b :: after')
      ∨ ∃ between, before = before' ++ b :: between ∧ after' = between ++ a :: after := by
  rcases List.append_eq_append_iff.mp h with ⟨between, hbefore, hafter⟩ | ⟨between, hbefore, hafter⟩
  · cases between with
    | nil => exact absurd (List.cons.inj hafter).1 hne
    | cons x between =>
      obtain ⟨rfl, rfl⟩ := List.cons.inj hafter
      exact Or.inl ⟨between, hbefore, rfl⟩
  · cases between with
    | nil => exact absurd (List.cons.inj hafter).1.symm hne
    | cons x between =>
      obtain ⟨rfl, rfl⟩ := List.cons.inj hafter
      exact Or.inr ⟨between, hbefore, rfl⟩

/-- Who was moved and is vouched for now was probed since. -/
theorem probedSince_of_vouched {kind : Transition} (group : Group) {i : Instance} {past new : List (Happening Fleet)}
    {start : Fleet} (hstart : start = replay {} past) (hregion : group.1 = i.region) (hid : i.id ∈ group.2)
    (hsent : Sent kind group i.id new) (hv : Vouched (past ++ new) i.id) : ProbedSince kind i start new := by
  obtain ⟨before, between, after, rfl⟩ := hsent
  obtain ⟨before', after', address, port, limit, hsplit, hruns, hcalm⟩ := hv
  let call : Happening Fleet := .asked (.cloud (.transition kind group.1 group.2 false)) (.ok ())
  have hsplit : (past ++ before ++ call :: between) ++ .changed (Change.entered i.id kind.underWay) :: after
      = before' ++ .asked (.probe address port limit) .opened :: after' := by
    rw [← hsplit]
    simp [call]
  rcases earlier_or_later hsplit (by simp) with ⟨later, rfl, rfl⟩ | ⟨later, -, rfl⟩
  · refine ⟨before, between ++ .changed (Change.entered i.id kind.underWay) :: later, after', group.2, address, port,
      limit, ?_, hid, ?_⟩
    · rw [← hregion]
      simp
    · obtain ⟨j, hj, hstate⟩ := hruns
      refine ⟨j, ?_, hstate⟩
      rw [hstart, ← replay_append, ← hregion, ← hj]
      simp [call]
  · -- a probe before the instance was moved does not vouch for it any more
    exact absurd (disturbs_entered _ _ _) hcalm.right.1

/-- An instance that can be reached runs, and is vouched for. -/
theorem Watched.running {t : Run Fleet σ} (ht : Watched t) {i : Instance} (hi : t.own.get? i.id = some i)
    (hr : i.reachable = true) : i.state = .running ∧ Vouched t.history i.id := by
  have hm := (mem_of_get? hi).1
  rw [ht.own_eq] at hm
  exact ht.sound.now i hm hr

/-! ## Moving instances -/

theorem arrival_eq (c : FleetConfig) (patience : Nat) (kind : Transition) (targets : Subset) :
    arrival c patience kind targets = (do
      let _ ← pollUntil c patience (.subset targets) c.convergenceTimeout fun f => f.allOf targets.ids kind.awaits
      reread targets) := by
  cases kind <;> rfl

/-- The targets are read as they are in the end, and all of them have arrived; those that were to run again answered a
probe since their region was called. -/
structure Arrived (kind : Transition) (targets sub : Subset) (s t : Run Fleet σ) : Prop where
  ids_eq : sub.ids = targets.ids
  current : ∀ i ∈ sub, t.own.get? i.id = some i
  reached : ∀ i ∈ sub, kind.Reached i
  probed : kind = .start ∨ kind = .reboot → ∃ new, t.history = s.history ++ new
    ∧ ∀ i ∈ sub, ProbedSince kind i s.own new

theorem requireFor_ensures (w : World σ) (kind : Transition) (targets : Subset) (s : Run Fleet σ) :
    Ensures w (requireFor kind targets) s (fun _ t => t = s) fun e _ => e.missing = false := by
  unfold requireFor
  split
  · unfold requireState
    split
    · exact .raise rfl
    · exact .pure rfl
  · exact .pure rfl

theorem settle_ensures (w : World σ) (failures : List Failure) (s : Run Fleet σ) :
    Ensures w (settle failures) s (fun _ t => t = s ∧ failures = []) fun e _ => e.missing = false := by
  have hrun := run_settle w failures s
  split at hrun
  · rename_i hnone
    exact .of_run hrun ⟨rfl, hnone⟩
  · exact .of_run_failed hrun rfl

/-- A transition that succeeds has sent every target on its way. -/
theorem transition_ensures (w : World σ) (kind : Transition) (targets : Subset) (s : Run Fleet σ) :
    Ensures w (transition kind targets false) s
      (fun _ t => ∃ new, t.history = s.history ++ new
        ∧ ∀ i ∈ targets, ∃ ids, i.id ∈ ids ∧ Sent kind (i.region, ids) i.id new)
      fun e _ => e.missing = false := by
  obtain ⟨moves, t, hrun, hgroups, hsending⟩ := run_transitionGroups w kind (Subset.byRegion targets) s
  refine (Ensures.of_run (Q := fun failures u => failures = moves.filterMap Move.failure? ∧ u = t) hrun ⟨rfl, rfl⟩).bind
    fun failures u ⟨hfailures, hu⟩ => ?_
  refine (settle_ensures w failures u).mono (fun _ v ⟨hv, hnone⟩ => ?_) fun _ _ h => h
  subst hv hu
  obtain ⟨new, hh, hsent⟩ := hsending.sent
  refine ⟨new, hh, fun i hi => ?_⟩
  have hagreed : i.region ∉ failing moves := by simp [failing, ← hfailures, hnone]
  obtain ⟨m, hm, hregion, hmoved⟩ := moved_of_target hgroups hi hagreed
  refine ⟨m.group.2, (mem_moved.mp hmoved).2, ?_⟩
  rw [← hregion]
  exact hsent m hm i.id hmoved

/-- A later registry has an instance in the region that it had before. -/
theorem region_eq_of_replay {f : Fleet} {new : List (Happening Fleet)} {i j : Instance} (hj : f.get? j.id = some j)
    (hi : (replay f new).get? i.id = some i) (hid : j.id = i.id) : i.region = j.region := by
  obtain ⟨k, hk, hentry⟩ := lookup_of_more (entries_replay f new) (lookup_eq_ok_iff.mpr hj)
  rw [hid, lookup_eq_ok_iff, hi] at hk
  cases hk
  exact congrArg Prod.snd hentry

/-- What was sent on its way and is vouched for in the end was probed since. -/
theorem probedSince_of_sent {kind : Transition} {targets sub : Subset} {s t : Run Fleet σ}
    {new later : List (Happening Fleet)} (hs : Watched s) (ht : Watched t)
    (hsent : ∀ i ∈ targets, ∃ ids, i.id ∈ ids ∧ Sent kind (i.region, ids) i.id new)
    (htargets : ∀ i ∈ targets, i ∈ s.own.instances) (hh : t.history = s.history ++ (new ++ later))
    (hids : sub.ids = targets.ids) (hcurrent : ∀ i ∈ sub, t.own.get? i.id = some i)
    (hreachable : ∀ i ∈ sub, i.reachable = true) : ∀ i ∈ sub, ProbedSince kind i s.own (new ++ later) := by
  intro i hi
  have hid : i.id ∈ targets.ids := hids ▸ List.mem_map_of_mem hi
  obtain ⟨j, hj, hji⟩ := List.mem_map.mp hid
  obtain ⟨ids, hm, hj'⟩ := hsent j hj
  obtain ⟨x, -, hshow⟩ := hs.inStep.index
  have hcur := hcurrent i hi
  rw [ht.own_eq, hh, replay_append, ← hs.own_eq] at hcur
  have hregion := region_eq_of_replay (get?_of_mem hshow.ids_nodup (htargets j hj)) hcur hji
  have hv := (ht.running (hcurrent i hi) (hreachable i hi)).2
  rw [hh] at hv
  rw [hji] at hm hj'
  exact probedSince_of_vouched (j.region, ids) hs.own_eq hregion.symm hm (hj'.append_left later) hv

theorem reached_of_awaits {kind : Transition} {t : Run Fleet σ} (ht : Watched t) {i : Instance}
    (hi : t.own.get? i.id = some i) (h : kind.awaits i = true) : kind.Reached i := by
  cases kind with
  | start => exact ⟨(ht.running hi h).1, h⟩
  | reboot => exact ⟨(ht.running hi h).1, h⟩
  | stop => simpa [Transition.awaits, Transition.Reached] using h
  | terminate => simpa [Transition.awaits, Transition.Reached] using h

/-- Sending targets on their way and awaiting them leads to their arrival. -/
theorem transition_arrival_ensures (w : World σ) (c : FleetConfig) (patience : Nat) (kind : Transition)
    {targets : Subset} {s : Run Fleet σ} (hs : Watched s) (htargets : ∀ i ∈ targets, i ∈ s.own.instances) :
    Ensures w (transition kind targets false >>= fun _ => arrival c patience kind targets) s
      (fun sub t => Arrived kind targets sub s t) fun e _ => e.missing = false := by
  have hknown := knows_of_mem htargets
  have hsend := ((transition_ensures w kind targets s).keeping
    ((stable_knows w targets.ids).transition kind targets false) hknown).keeping
    ((stable_watched w).transition kind targets false) hs
  refine hsend.bind fun _ u ⟨⟨⟨new, hh, hsent⟩, hknown⟩, hu⟩ => ?_
  rw [arrival_eq]
  have hwatch : Keeps w Watched (do
      let _ ← pollUntil c patience (.subset targets) c.convergenceTimeout fun f => f.allOf targets.ids kind.awaits
      reread targets : FleetProgram Subset) :=
    ((stable_watched w).pollUntil c patience _ _ _).bind fun _ => keeps_reread targets
  refine ((await_reread_ensures w c patience hknown).growing.keeping hwatch hu).mono ?_ fun _ _ h => h
  rintro sub t ⟨⟨⟨hids, hall⟩, later, hh'⟩, ht⟩
  refine ⟨hids, fun i hi => (hall i hi).1, fun i hi => reached_of_awaits ht (hall i hi).1 (hall i hi).2,
    fun hkind => ?_⟩
  have hhistory : t.history = s.history ++ (new ++ later) := by rw [hh', hh, List.append_assoc]
  refine ⟨new ++ later, hhistory, ?_⟩
  refine probedSince_of_sent hs ht hsent htargets hhistory hids (fun i hi => (hall i hi).1) fun i hi => ?_
  have hawaits := (hall i hi).2
  rcases hkind with rfl | rfl <;> exact hawaits

theorem moving_ensures (w : World σ) (c : FleetConfig) (patience : Nat) (kind : Transition) (target : Option Target)
    {s : Run Fleet σ} (hs : Watched s) :
    Ensures w (moving c patience kind target) s
      (fun sub t => ∃ targets, s.own.chosen target kind.default = .ok targets ∧ Arrived kind targets sub s t)
      fun e _ => e.missing = true → s.own.chosen target kind.default = .error e := by
  rw [moving_eq]
  refine of_targetsOr fun targets hchosen => (requireFor_ensures w kind targets s).bind fun _ u hu => ?_
  subst hu
  exact transition_arrival_ensures w c patience kind hs (mem_of_chosen hchosen (mem_of_mem_default kind _))

/-! ## Waiting for instances to start up -/

/-- The instances that are awaited if no target is given. -/
def startingUp (f : Fleet) : Subset := f.filter fun i => i.state == .pending || i.state == .running

/-- The instances of the identifiers are read as they are in the end, and all of them run and can be reached. -/
structure Awake (ids : List InstanceId) (sub : Subset) (t : Run Fleet σ) : Prop where
  ids_eq : sub.ids = ids
  current : ∀ i ∈ sub, t.own.get? i.id = some i
  running : ∀ i ∈ sub, i.state = .running ∧ i.reachable = true

theorem waitForStartup_ensures (w : World σ) (c : FleetConfig) (patience : Nat) (target : Option Target)
    {s : Run Fleet σ} (hs : Watched s) :
    Ensures w (waitForStartup c patience target) s
      (fun sub t => ∃ targets, s.own.chosen target startingUp = .ok targets ∧ Awake targets.ids sub t)
      fun e _ => e.missing = true → s.own.chosen target startingUp = .error e := by
  refine of_targetsOr fun targets hchosen => ?_
  have htargets := mem_of_chosen hchosen fun i hi => (List.mem_filter.mp hi).1
  have hwatch : Keeps w Watched (do
      let _ ← awaitReachable c patience targets
      reread targets : FleetProgram Subset) :=
    ((stable_watched w).pollUntil c patience _ _ _).bind fun _ => keeps_reread targets
  refine ((await_reread_ensures w c patience (knows_of_mem htargets)).keeping hwatch hs).mono ?_ fun _ _ h => h
  rintro sub t ⟨⟨hids, hall⟩, ht⟩
  exact ⟨hids, fun i hi => (hall i hi).1, fun i hi => ⟨(ht.running (hall i hi).1 (hall i hi).2).1, (hall i hi).2⟩⟩

/-! ## Launching instances -/

/-- The identifiers of the instances that a call launched. -/
def launchedIds (call : Region × Except CloudError (List InstanceRecord)) : List InstanceId :=
  match call.2 with
  | .ok records => records.map InstanceRecord.id
  | .error _ => []

theorem bootstrap_ensures (w : World σ) (c : FleetConfig) (s : Run Fleet σ) :
    Ensures w (bootstrap c) s (fun _ _ => True) fun e _ => e.missing = false := by
  unfold bootstrap
  split
  · exact .pure trivial
  · rename_i path _
    refine .ask ?_
    cases s.reply w (.file (.readText path)) with
    | ok text => exact .pure trivial
    | error e => exact .raise rfl

/-- What is registered is known from then on. -/
theorem register_ensures (w : World σ) (region : Region) (records : List InstanceRecord) (s : Run Fleet σ) :
    Ensures w (register region records) s (fun ids t => ids = records.map InstanceRecord.id ∧ Knows ids t)
      fun e _ => e.missing = false := by
  induction records generalizing s with
  | nil => exact .pure ⟨rfl, by simp [Knows]⟩
  | cons record records ih =>
    cases hr : record.readable with
    | false => exact .of_run_failed (run_register_unreadable w region hr records s) rfl
    | true =>
      obtain ⟨state, hp⟩ := Option.isSome_iff_exists.mp hr
      simp only [register, hp]
      have hone : Ensures w (observe region ⟨record, state, none⟩ : FleetProgram Unit) s
          (fun _ t => t.own.knows record.id = true) fun e _ => e.missing = false := by
        refine .of_run (run_observe w region _ s) ?_
        exact knows_replay (knows_listed w region ⟨record, state, none⟩ s) [.changed (Change.loaded record state none)]
      refine hone.bind fun _ t ht => ?_
      have hkeep := (stable_knows w [record.id]).register region records
      refine ((ih t).keeping hkeep (by simpa [Knows] using ht)).bind fun ids u h => ?_
      obtain ⟨⟨hids, hknown⟩, hfirst⟩ := h
      refine .pure ⟨?_, ?_⟩
      · rw [hids, List.map_cons]
      · intro id hid
        rcases List.mem_cons.mp hid with rfl | hid
        · exact hfirst _ List.mem_cons_self
        · exact hknown id hid

/-- Since the first run these regions were called to launch instances. -/
def Calls (s : Run Fleet σ) (called : List (Region × Except CloudError (List InstanceRecord))) (t : Run Fleet σ) :
    Prop :=
  launches t.history = launches s.history ++ called

theorem Calls.refl (s : Run Fleet σ) : Calls s [] s := (List.append_nil _).symm

theorem Calls.trans {s t u : Run Fleet σ} {xs ys : List (Region × Except CloudError (List InstanceRecord))}
    (h : Calls s xs t) (h' : Calls t ys u) : Calls s (xs ++ ys) u := by
  rw [Calls, h', h, List.append_assoc]

theorem stable_calls (w : World σ) (s : Run Fleet σ)
    (called : List (Region × Except CloudError (List InstanceRecord))) : Stable w (Calls s called) :=
  stable_launches w _

theorem Calls.ask {s t : Run Fleet σ} {called : List (Region × Except CloudError (List InstanceRecord))}
    (h : Calls s called t) (w : World σ) {r : Request} (hr : r.commits = false) : Calls s called (t.ask w r) := by
  rw [Calls, Run.history_ask, launches_append, launches_asked hr, h]
  exact List.append_nil _

theorem Calls.launch (w : World σ) (s : Run Fleet σ) (region : Region) (request : LaunchRequest) :
    Calls s [(region, s.reply w (.cloud (.launch region request false)))]
      (s.ask w (.cloud (.launch region request false))) := by
  rw [Calls, Run.history_ask, launches_append]
  rfl

/-- A request is for as many as are missing. -/
theorem launchRequest_ensures (w : World σ) (c : FleetConfig) (region : Region) (count : Nat) (userData : String)
    (s : Run Fleet σ) :
    Ensures w (Program.ofExcept (launchRequest c s.own region count userData) : FleetProgram LaunchRequest) s
      (fun request t => t = s ∧ request.count = count) fun e _ => e.missing = false := by
  refine .ofExcept (fun request hrequest => ⟨rfl, ?_⟩) fun e he => ?_
  · unfold launchRequest at hrequest
    split at hrequest
    · cases hrequest
    · cases hrequest
      rfl
  · unfold launchRequest at he
    split at he
    · cases he
      rfl
    · cases he

theorem launch_ensures (w : World σ) (region : Region) (request : LaunchRequest) (s : Run Fleet σ)
    {F : FleetError → Run Fleet σ → Prop} :
    Ensures w (Cloud.launch region request false : FleetProgram (Cloud.Answer (List InstanceRecord))) s
      (fun answer t => answer = s.reply w (.cloud (.launch region request false))
        ∧ t = s.ask w (.cloud (.launch region request false))) F := by
  refine .of_run (run_launch (ε := FleetError) w region request false s) ⟨?_, rfl⟩
  rw [forgive_false]

/-- What launching returns are the identifiers that the regions answered, and they are known. -/
theorem launchGroups_ensures (w : World σ) (c : FleetConfig) (userData : String) (groups : List (Region × Nat))
    (s : Run Fleet σ) :
    Ensures w (launchGroups c userData false groups) s
      (fun found t => ∃ called, Calls s called t ∧ found.2 = called.flatMap launchedIds ∧ Knows found.2 t)
      fun e _ => e.missing = false := by
  induction groups generalizing s with
  | nil => exact .pure ⟨[], .refl s, rfl, by simp [Knows]⟩
  | cons group groups ih =>
    obtain ⟨region, count⟩ := group
    refine .consult ?_
    refine (launchRequest_ensures w c region count userData s).bind fun request t ht => ?_
    obtain ⟨rfl, -⟩ := ht
    refine (launch_ensures w region request t).bind fun answer v hv => ?_
    have hv : Calls t [(region, answer)] v := hv.1 ▸ hv.2 ▸ .launch w t region request
    cases answer with
    | error e =>
      refine .ask ((ih _).bind fun found x ⟨called, hcalled, hids, hknown⟩ => .pure ?_)
      exact ⟨(region, .error e) :: called, (hv.ask w rfl).trans hcalled, by simpa [launchedIds] using hids, hknown⟩
    | ok records =>
      refine .ask ?_
      have hregister := (register_ensures w region records
        (v.ask w (.announce (.launched region records.length)))).keeping
        ((stable_calls w t _).register region records) (hv.ask w rfl)
      refine hregister.bind fun new x ⟨⟨hnew, hknown⟩, hx⟩ => ?_
      have hkeep := (stable_knows w new).launchGroups (fun _ _ _ h => h) c userData false groups
      refine ((ih x).keeping hkeep hknown).bind fun found y ⟨⟨called, hcalled, hids, hknown'⟩, hfirst⟩ => .pure ?_
      refine ⟨(region, .ok records) :: called, hx.trans hcalled, ?_, fun id hid => ?_⟩
      · rw [hnew, hids]
        rfl
      · exact (List.mem_append.mp hid).elim (hfirst id) (hknown' id)

/-- What launching gives: the instances of the identifiers, once each, all of which can be reached. -/
def Reachable (ids : List InstanceId) (launch : Launch) (t : Run Fleet σ) : Prop :=
  ∀ sub, launch = .launched sub → sub.ids = ids.eraseDups ∧ ∀ i ∈ sub, t.own.get? i.id = some i ∧ i.reachable = true

theorem refreshAll_ensures (w : World σ) (c : FleetConfig) (s : Run Fleet σ) :
    Ensures w (refresh c .all) s (fun _ _ => True) fun e _ => e.missing = false := by
  refine (refresh_ensures w c .all s).mono (fun _ _ h => h) fun e _ he => ?_
  by_contra hmissing
  cases he (by simpa using hmissing)

/-- Known identifiers can be resolved, and each of them gives one instance. -/
theorem resolve_ensures (w : World σ) {ids : List InstanceId} {s : Run Fleet σ} (hs : Knows ids s) :
    Ensures w (Program.ofExcept (s.own.resolve (.ids ids)) : FleetProgram Subset) s
      (fun targets t => targets.ids = ids.eraseDups ∧ Knows targets.ids t) fun _ _ => False := by
  have hfirst : ∀ id ∈ firstMentions ids, s.own.knows id = true := fun id hid =>
    hs id (List.mem_eraseDups.mp (firstMentions_eq_eraseDups ids ▸ hid))
  obtain ⟨is, his⟩ := lookupAll_of_knows hfirst
  refine .ofExcept (fun targets h => ?_) fun e he => ?_
  · have hids := ids_lookupAll h
    exact ⟨hids.trans (firstMentions_eq_eraseDups ids), hids ▸ hfirst⟩
  · have hok : s.own.resolve (.ids ids) = .ok is := his
    rw [hok] at he
    cases he

theorem awaitLaunched_ensures (w : World σ) (c : FleetConfig) (patience : Nat) {ids : List InstanceId} {s : Run Fleet σ}
    (hs : Knows ids s) :
    Ensures w (do
        refresh c .all
        let fleet ← Program.memory
        let targets ← Program.ofExcept (fleet.resolve (.ids ids))
        let _ ← awaitReachable c patience targets
        let fleet ← Program.memory
        let launched ← Program.ofExcept (fleet.resolve (.subset targets))
        pure (.launched launched) : FleetProgram Launch) s
      (fun launch t => Reachable ids launch t) fun e _ => e.missing = false := by
  have hrefresh := (refreshAll_ensures w c s).keeping ((stable_knows w ids).refresh c .all) hs
  refine hrefresh.bind fun _ t ht => .consult ((resolve_ensures w ht.2).unfailing.bind fun targets u hu => ?_)
  refine (await_ensures w c patience hu.2).bind fun _ v hv => ?_
  have hlaunched : Ensures w (reread targets >>= fun launched => pure (.launched launched) : FleetProgram Launch) v
      (fun launch t => Reachable ids launch t) fun e _ => e.missing = false := by
    refine (reread_ensures w hv.2 hv.1).unfailing.bind fun sub x hx => .pure fun sub' heq => ?_
    cases heq
    rw [← hu.1]
    exact hx
  exact hlaunched

theorem launchShortfall_ensures (w : World σ) (c : FleetConfig) (patience : Nat) (missing : List (Region × Nat))
    (total : Nat) (s : Run Fleet σ) :
    Ensures w (launchShortfall c patience false missing total) s
      (fun launch t => ∃ called, Calls s called t ∧ Reachable (called.flatMap launchedIds) launch t)
      fun e _ => e.missing = false := by
  have hboot := (bootstrap_ensures w c s).keeping ((stable_calls w s []).bootstrap c) (.refl s)
  refine hboot.bind fun userData t ⟨_, ht⟩ => .ask ?_
  have hasked : Calls s [] (t.ask w (.confirm s!"launch {total} instance(s)?")) := by
    rw [Calls, Run.history_ask, launches_append, ht]
    exact List.append_nil _
  split
  · refine (launchGroups_ensures w c userData _ _).bind fun found u ⟨called, hcalled, hids, hknown⟩ => ?_
    refine (settle_ensures w found.1 u).bind fun _ v ⟨hv, _⟩ => ?_
    subst hv
    have hwait := (awaitLaunched_ensures w c patience hknown).keeping
      ((stable_calls w s _).awaitLaunched c patience false [] found.2) (hasked.trans hcalled)
    refine hwait.mono (fun launch x ⟨hx, hcalls⟩ => ⟨called, hcalls, ?_⟩) fun _ _ h => h
    rw [← hids]
    exact hx
  · exact .ask (.pure ⟨[], hasked.ask w rfl, fun sub h => by cases h⟩)

theorem create_ensures (w : World σ) (c : FleetConfig) (patience : Nat) (plan : Plan) (s : Run Fleet σ) :
    Ensures w (create c patience plan false) s
      (fun launch t => ∃ called, Calls s called t ∧ Reachable (called.flatMap launchedIds) launch t)
      fun e _ => e.missing = false := by
  have hselect := (selectImages_ensures w c plan.regions s).keeping ((stable_calls w s []).selectImages c _) (.refl s)
  refine hselect.bind fun failures t ⟨_, ht⟩ => (settle_ensures w failures t).bind fun _ u ⟨hu, _⟩ => ?_
  subst hu
  refine .consult ?_
  dsimp only
  split
  · exact .crash
  · rename_i total _
    have hplanned := ht.ask w (r := .announce (.launchPlanned (u.own.shortfall plan) u.own.running.length total)) rfl
    refine .ask ?_
    split
    · refine .pure ⟨[], hplanned, fun sub heq => ?_⟩
      cases heq
      exact ⟨rfl, by simp⟩
    · refine (launchShortfall_ensures w c patience _ total _).mono (fun launch v ⟨called, hcalls, hv⟩ => ?_)
        fun _ _ h => h
      exact ⟨called, hplanned.trans hcalls, hv⟩

/-! ## Calls that succeed -/

/-- What was launched and can be reached is awake. -/
theorem Reachable.awake {ids : List InstanceId} {sub : Subset} {t : Run Fleet σ} (h : Reachable ids (.launched sub) t)
    (ht : Watched t) : Awake ids.eraseDups sub t := by
  obtain ⟨hids, hall⟩ := h sub rfl
  exact ⟨hids, fun i hi => (hall i hi).1, fun i hi => ⟨(ht.running (hall i hi).1 (hall i hi).2).1, (hall i hi).2⟩⟩

theorem awake_of_create {w : World σ} {c : FleetConfig} {patience : Nat} {plan : Plan} {s t : Run Fleet σ}
    (hs : Watched s) {sub : Subset} (hrun : (create c patience plan false).run w s = (.returned (.launched sub), t)) :
    ∃ new, t.history = s.history ++ new ∧ Awake ((launches new).flatMap launchedIds).eraseDups sub t := by
  have hwatch := (stable_watched w).create (fun _ _ hr hs => hs.ask w (Request.discovery?_of_commits hr)) c patience
    plan false
  obtain ⟨⟨⟨called, hcalls, hreachable⟩, new, hh⟩, ht⟩ :=
    ((create_ensures w c patience plan s).growing.keeping hwatch hs).of_returned hrun
  have hcalled : launches new = called := by
    rw [Calls, hh, launches_append] at hcalls
    exact List.append_cancel_left hcalls
  exact ⟨new, hh, hcalled ▸ hreachable.awake ht⟩

/-- For every registry that operations can lead to, every target and whatever is answered: a call that moves instances
returns its targets when they have arrived, those that were to run again probed since; a wait returns its targets awake;
launching returns awake what was launched, once each in the order of the answers. None of them fails to find what it
acts on, unless its target does not exist to begin with; in particular the targets can always be read again in the end.
-/
theorem successful_calls_have_arrived (w : World σ) (c : FleetConfig) (world : σ) (os : List (Nat × Operation))
    (patience : Nat) {s : Run Fleet σ} (hs : s = runAll w c (fresh world) os) :
    (∀ kind target sub t, (moving c patience kind target).run w s = (.returned sub, t) →
      ∃ targets, s.own.chosen target kind.default = .ok targets ∧ Arrived kind targets sub s t)
    ∧ (∀ target sub t, (waitForStartup c patience target).run w s = (.returned sub, t) →
      ∃ targets, s.own.chosen target startingUp = .ok targets ∧ Awake targets.ids sub t)
    ∧ (∀ plan sub t, (create c patience plan false).run w s = (.returned (.launched sub), t) →
      ∃ new, t.history = s.history ++ new ∧ Awake ((launches new).flatMap launchedIds).eraseDups sub t)
    ∧ (∀ (f : Fleet) target e, f.resolve target = .error e → e.missing = true)
    ∧ (∀ kind target e t, (moving c patience kind target).run w s = (.failed e, t) → e.missing = true →
      s.own.chosen target kind.default = .error e)
    ∧ (∀ target e t, (waitForStartup c patience target).run w s = (.failed e, t) → e.missing = true →
      s.own.chosen target startingUp = .error e)
    ∧ ∀ plan e t, (create c patience plan false).run w s = (.failed e, t) → e.missing = false := by
  have hwatched : Watched s := hs ▸ watched_runAll w c world os
  refine ⟨fun kind target sub t hrun => ?_, fun target sub t hrun => ?_, fun plan sub t hrun => ?_,
    fun f target e => missing_of_resolve, fun kind target e t hrun => ?_, fun target e t hrun => ?_,
    fun plan e t hrun => ?_⟩
  · exact (moving_ensures w c patience kind target hwatched).of_returned hrun
  · exact (waitForStartup_ensures w c patience target hwatched).of_returned hrun
  · exact awake_of_create hwatched hrun
  · exact (moving_ensures w c patience kind target hwatched).of_failed hrun
  · exact (waitForStartup_ensures w c patience target hwatched).of_failed hrun
  · exact (create_ensures w c patience plan s).of_failed hrun

/-! ## A cloud that does as it is told -/

/-- A cloud whose instances all run or are all stopped, as they were last told. It has one instance, and launches
another one; every probe is answered, and the operator consents. -/
def obedientCloud : World Bool where
  answer
    | .cloud (.describeInstances _ ids), up =>
      (.ok ((if ids = [] then ["i-1"] else ids).map fun id => ⟨id, some id, if up then "running" else "stopped"⟩), up)
    | .cloud (.describeStatuses ..), up => (.ok [], up)
    | .cloud (.transition kind ..), _ => (.ok (), kind == .start || kind == .reboot)
    | .cloud (.describeImages ..), up => (.ok [⟨"ami-1", "2024"⟩], up)
    | .cloud (.launch ..), up => (.ok [⟨"i-2", none, "pending"⟩], up)
    | .probe .., up => (.opened, up)
    | .confirm _, up => (true, up)
    | r, up => (r.unanswered, up)

/-- One region, and instances that start without a script. -/
def oneRegion : FleetConfig := { regions := [⟨"eu-west-3"⟩], bootstrapScript := none }

/-- The fleet after a refresh and more operations. -/
def obeying (more : List (Nat × Operation)) : Run Fleet Bool :=
  runAll obedientCloud oneRegion (fresh false) ((0, .refresh .all) :: more)

/-- An instance that runs and can be reached. -/
def awake (id : InstanceId) : Instance := ⟨id, ⟨"eu-west-3"⟩, some id, .running, true, none⟩

/-- The fleet whose only instance was started. -/
def started : Run Fleet Bool := obeying [(1, .start none false)]

theorem successful_calls_have_arrived_obedient :
    (∃ targets t, (moving oneRegion 1 .start none).run obedientCloud (obeying []) = (.returned [awake "i-1"], t)
      ∧ (obeying []).own.chosen none Transition.start.default = .ok targets
      ∧ Arrived .start targets [awake "i-1"] (obeying []) t)
    ∧ (∃ targets t, (waitForStartup oneRegion 1 none).run obedientCloud started = (.returned [awake "i-1"], t)
      ∧ started.own.chosen none startingUp = .ok targets ∧ Awake targets.ids [awake "i-1"] t)
    ∧ (∃ new t, (create oneRegion 1 ⟨[(⟨"eu-west-3"⟩, 2)]⟩ false).run obedientCloud started
        = (.returned (.launched [awake "i-2"]), t)
      ∧ t.history = started.history ++ new ∧ Awake ((launches new).flatMap launchedIds).eraseDups [awake "i-2"] t)
    ∧ ∃ t, (moving oneRegion 1 .reboot (some (.id "i-9"))).run obedientCloud started = (.failed (.notFound "id i-9"), t)
      ∧ started.own.chosen (some (.id "i-9")) Transition.reboot.default = .error (.notFound "id i-9") := by
  have hlisted := successful_calls_have_arrived obedientCloud oneRegion false
    [(0, .refresh .all)] 1 (s := obeying []) rfl
  have hstarted := successful_calls_have_arrived obedientCloud oneRegion false
    [(0, .refresh .all), (1, .start none false)] 1 (s := started) rfl
  have hstart : (moving oneRegion 1 .start none).run obedientCloud (obeying []) = (.returned [awake "i-1"], _) :=
    Prod.ext rfl rfl
  have hwait : (waitForStartup oneRegion 1 none).run obedientCloud started = (.returned [awake "i-1"], _) :=
    Prod.ext rfl rfl
  have hcreate : (create oneRegion 1 ⟨[(⟨"eu-west-3"⟩, 2)]⟩ false).run obedientCloud started
      = (.returned (.launched [awake "i-2"]), _) := Prod.ext rfl rfl
  have hmissing : (moving oneRegion 1 .reboot (some (.id "i-9"))).run obedientCloud started
      = (.failed (.notFound "id i-9"), _) := Prod.ext rfl rfl
  obtain ⟨targets, htargets, harrived⟩ := hlisted.1 _ _ _ _ hstart
  obtain ⟨-, hawait, hlaunch, -, hfail, -⟩ := hstarted
  obtain ⟨awaited, hawaited, hawake⟩ := hawait _ _ _ hwait
  obtain ⟨new, hnew, hlaunched⟩ := hlaunch _ _ _ hcreate
  exact ⟨⟨targets, _, hstart, htargets, harrived⟩, ⟨awaited, _, hwait, hawaited, hawake⟩,
    ⟨new, _, hcreate, hnew, hlaunched⟩, _, hmissing, hfail _ _ _ _ hmissing rfl⟩

end Fleet

end CloudFleet
