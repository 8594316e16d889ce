import CloudFleet.Proofs.Fleet.Describing
import CloudFleet.Proofs.Fleet.Grouping
import CloudFleet.World.Inert
import Mathlib.Data.List.Nodup

/-!
# A region that fails keeps no other from moving

Start, stop, reboot and terminate differ in whom they take by default, which state they require and what they wait for;
all of them move their targets in the same way (`run_moving`). A `Move` is the call of one region, with its answer. The
regions are called one after the other whatever they answer, and only where the call succeeded the targets are taken to
be on their way (`run_transitionGroups`).

Main statement, for every fleet, kind and target, and whatever the regions answer: `moving_isolates_failures`.
-/

set_option autoImplicit false

namespace CloudFleet

variable {σ : Type}

/-! ## The four operations as one -/

/-- The instances that are moved if no target is given. -/
def Transition.default : Transition → Fleet → Subset
  | start => fun f => f.inState .stopped
  | stop | reboot => Fleet.running
  | terminate => fun f => f.filter fun i => i.state != .terminated

/-- The state that the targets must be in. -/
def Transition.required? : Transition → Option InstanceState
  | start => some .stopped
  | stop | reboot => some .running
  | terminate => none

namespace Fleet

/-- The instances that a target names, or those taken by default. -/
def chosen (f : Fleet) (target : Option Target) (default : Fleet → Subset) : Except FleetError Subset :=
  match target with
  | some target => f.resolve target
  | none => .ok (default f)

/-- The operation that moves instances for good. -/
def moving (c : FleetConfig) (patience : Nat) (kind : Transition) (target : Option Target) : FleetProgram Subset :=
  match kind with
  | .start => start c patience target false
  | .stop => stop c patience target false
  | .reboot => reboot c patience target false
  | .terminate => terminate c patience target false

/-- Wait until the targets have arrived, and read them again. -/
def arrival (c : FleetConfig) (patience : Nat) (kind : Transition) (targets : Subset) : FleetProgram Subset := do
  let _ ← match kind with
    | .start | .reboot => awaitReachable c patience targets
    | .stop => awaitStates c patience [.stopped, .terminated] targets
    | .terminate => awaitStates c patience [.terminated] targets
  reread targets

/-- Fail for the first target that is not in the state required. -/
def requireFor (kind : Transition) (targets : Subset) : FleetProgram Unit :=
  match kind.required? with
  | some expected => requireState expected targets
  | none => pure ()

theorem moving_eq (c : FleetConfig) (patience : Nat) (kind : Transition) (target : Option Target) :
    moving c patience kind target = (do
      let targets ← targetsOr target kind.default
      requireFor kind targets
      transition kind targets false
      arrival c patience kind targets) := by
  cases kind <;> rfl

theorem run_targetsOr (w : World σ) (target : Option Target) (default : Fleet → Subset) (s : Run Fleet σ) :
    (targetsOr target default).run w s
      = (Program.ofExcept (s.own.chosen target default) : FleetProgram Subset).run w s := by
  cases target <;> rfl

theorem run_requireFor (w : World σ) {kind : Transition} {targets : Subset}
    (h : ∀ expected, kind.required? = some expected → ∀ i ∈ targets, i.state = expected) (s : Run Fleet σ) :
    (requireFor kind targets).run w s = (.returned (), s) := by
  unfold requireFor
  split
  · rename_i expected hexpected
    have hnone : (targets.find? fun i => i.state != expected) = none := by
      refine List.find?_eq_none.mpr fun i hi => ?_
      simp [h expected hexpected i hi]
    rw [requireState, hnone]
    rfl
  · rfl

/-! ## The call of one region -/

/-- A group whose region was called to move its instances, with the answer. -/
structure Move where
  group : Group
  answer : Except CloudError Unit

namespace Move

/-- The call, with its answer. -/
def exchange (kind : Transition) (m : Move) : (r : Request) × r.Reply :=
  ⟨.cloud (.transition kind m.group.1 m.group.2 false), m.answer⟩

/-- The region with its error, if it failed. -/
def failure? (m : Move) : Option Failure :=
  match m.answer with
  | .error e => some (m.group.1, e)
  | .ok () => none

/-- The instances that are on their way. -/
def moved (m : Move) : List InstanceId :=
  match m.answer with
  | .error _ => []
  | .ok () => m.group.2

end Move

/-- The region was called to move the group, agreed, and then the instance was taken to be on its way. -/
def Sent (kind : Transition) (group : Group) (id : InstanceId) (h : List (Happening Fleet)) : Prop :=
  ∃ before between after, h = before
    ++ .asked (.cloud (.transition kind group.1 group.2 false)) (.ok ())
      :: (between ++ .changed (Change.entered id kind.underWay) :: after)

theorem Sent.append_left {kind : Transition} {group : Group} {id : InstanceId} {h : List (Happening Fleet)}
    (hs : Sent kind group id h) (k : List (Happening Fleet)) : Sent kind group id (h ++ k) := by
  obtain ⟨before, between, after, rfl⟩ := hs
  exact ⟨before, between, after ++ k, by simp⟩

theorem Sent.append_right {kind : Transition} {group : Group} {id : InstanceId} {k : List (Happening Fleet)}
    (hs : Sent kind group id k) (h : List (Happening Fleet)) : Sent kind group id (h ++ k) := by
  obtain ⟨before, between, after, rfl⟩ := hs
  exact ⟨h ++ before, between, after, by simp⟩

theorem sent_of_mem (kind : Transition) {group : Group} {id : InstanceId} (hid : id ∈ group.2)
    (before : List (Happening Fleet)) :
    Sent kind group id (before ++ .asked (.cloud (.transition kind group.1 group.2 false)) (.ok ())
      :: group.2.map fun id => .changed (Change.entered id kind.underWay)) := by
  obtain ⟨first, later, hsplit⟩ := List.append_of_mem hid
  refine ⟨before, first.map fun id => .changed (Change.entered id kind.underWay),
    later.map fun id => .changed (Change.entered id kind.underWay), ?_⟩
  rw [hsplit, List.map_append, List.map_cons]

/-- From one run to another the calls were made, and nothing else was asked; the instances of the regions that agreed
are on their way, each since the call of its region, and nothing else changed. -/
structure Sending (kind : Transition) (moves : List Move) (s t : Run Fleet σ) : Prop where
  asks : Asks s t (moves.map (Move.exchange kind))
  own_eq : t.own = s.own.updateEach (moves.flatMap Move.moved) fun i => i.enter kind.underWay
  sent : ∃ new, t.history = s.history ++ new ∧ ∀ m ∈ moves, ∀ id ∈ m.moved, Sent kind m.group id new

theorem enter_enter (i : Instance) (state : InstanceState) : (i.enter state).enter state = i.enter state := by
  by_cases h : state = .running <;> simp [Instance.enter, h]

theorem updateEach_updateEach (f : Fleet) (ids more : List InstanceId) (state : InstanceState) :
    (f.updateEach ids fun i => i.enter state).updateEach more (fun i => i.enter state)
      = f.updateEach (ids ++ more) fun i => i.enter state := by
  simp only [updateEach, List.map_map, Fleet.mk.injEq, and_true]
  refine List.map_congr_left fun i _ => ?_
  by_cases h : i.id ∈ ids <;> by_cases hm : i.id ∈ more <;> simp [h, hm, enter_enter]

namespace Sending

variable {kind : Transition} {s t u : Run Fleet σ}

theorem refl (kind : Transition) (s : Run Fleet σ) : Sending kind [] s s :=
  ⟨.refl s, by simp [updateEach], [], by simp, by simp⟩

theorem trans {ms ns : List Move} (h : Sending kind ms s u) (hlater : Sending kind ns u t) :
    Sending kind (ms ++ ns) s t := by
  obtain ⟨new, hh, hsent⟩ := h.sent
  obtain ⟨later, hh', hsent'⟩ := hlater.sent
  refine ⟨?_, ?_, new ++ later, ?_, fun m hm id hid => ?_⟩
  · rw [List.map_append]
    exact h.asks.trans hlater.asks
  · rw [hlater.own_eq, h.own_eq, updateEach_updateEach, List.flatMap_append]
  · rw [hh', hh, List.append_assoc]
  · rcases List.mem_append.mp hm with hm | hm
    · exact (hsent m hm id hid).append_left later
    · exact (hsent' m hm id hid).append_right new

end Sending

theorem history_changeEach (change : InstanceId → Change) (ids : List InstanceId) (s : Run Fleet σ) :
    (changeEach s change ids).history = s.history ++ ids.map fun id => .changed (change id) := by
  induction ids generalizing s with
  | nil => simp [changeEach]
  | cons id ids ih =>
    have hstep : (changeEach s change (id :: ids)).history
        = (s.change (change id)).history ++ ids.map fun id => .changed (change id) := ih _
    rw [hstep, Run.history_change, List.map_cons, List.append_assoc]
    rfl

/-- Where a region failed nothing changed. -/
theorem Sending.refused {kind : Transition} {group : Group} {e : CloudError} {s t : Run Fleet σ}
    (hasks : Asks s t [Move.exchange kind ⟨group, .error e⟩]) (hown : t.own = s.own)
    (hh : ∃ new, t.history = s.history ++ new) : Sending kind [⟨group, .error e⟩] s t := by
  obtain ⟨new, hh⟩ := hh
  exact ⟨hasks, by simp [hown, updateEach, Move.moved], new, hh, by simp [Move.moved]⟩

/-- Where a region agreed its instances are on their way. -/
theorem Sending.agreed {kind : Transition} {group : Group} {s u : Run Fleet σ}
    (hasks : Asks s u [Move.exchange kind ⟨group, .ok ()⟩]) (hown : u.own = s.own) {before : List (Happening Fleet)}
    (hh : u.history
      = s.history ++ (before ++ [.asked (.cloud (.transition kind group.1 group.2 false)) (.ok ())])) :
    Sending kind [⟨group, .ok ()⟩] s (changeEach u (fun id => Change.entered id kind.underWay) group.2) := by
  refine ⟨hasks.trans (asks_changeEach group.2 u), ?_, ?_⟩
  · rw [own_changeEach (g := fun i => i.enter kind.underWay) (fun _ _ => rfl) (fun _ => rfl)
      fun i => enter_enter i kind.underWay, hown]
    simp [Move.moved]
  · refine ⟨_, by rw [history_changeEach, hh, List.append_assoc, List.append_assoc], fun m hm id hid => ?_⟩
    cases List.mem_singleton.mp hm
    exact sent_of_mem kind hid before

theorem run_cloudTransition (w : World σ) (kind : Transition) (group : Group) (s : Run Fleet σ) :
    (Cloud.transition kind group.1 group.2 false : FleetProgram _).run w s
      = (.returned (s.reply w (.cloud (.transition kind group.1 group.2 false))),
        s.ask w (.cloud (.transition kind group.1 group.2 false))) := by
  unfold Cloud.transition Cloud.call
  rw [Program.run_andThen_of_returned (Program.run_request w _ s)]
  simp only [forgive_false]
  rfl

/-- One region: its call is all that is asked, and the others follow whatever it answers. -/
theorem run_transitionGroups_cons (w : World σ) (kind : Transition) (group : Group) (groups : List Group)
    (s : Run Fleet σ) :
    ∃ (m : Move) (u : Run Fleet σ), m.group = group ∧ Sending kind [m] s u
      ∧ (transitionGroups kind false (group :: groups)).run w s
        = (transitionGroups kind false groups >>= fun failures => pure (m.failure?.toList ++ failures)).run w u := by
  let announcement := Request.announce (.transitionRequested kind group.1 group.2 false)
  let call := Request.cloud (.transition kind group.1 group.2 false)
  let v := (s.ask w announcement).ask w call
  have hasked : Asks s v [⟨call, (s.ask w announcement).reply w call⟩] :=
    (Asks.tell w s (r := announcement) rfl rfl).trans (.ask w _ (r := call) rfl)
  have hh : v.history = s.history
      ++ ([.asked announcement ()] ++ [.asked call ((s.ask w announcement).reply w call)]) := by
    simp only [v, Run.history_ask, List.append_assoc]
    rfl
  rw [transitionGroups, Program.run_andThen_of_returned (Program.run_request w announcement s),
    Program.run_andThen_of_returned (run_cloudTransition w kind group _)]
  cases hanswer : (s.ask w announcement).reply w call with
  | error e =>
    rw [hanswer] at hasked hh
    let line := Request.log ⟨.warn, s!"{kind.name} in {group.1.name} failed: {e.message}"⟩
    have htold : (v.ask w line).history = _ ++ [_] := Run.history_ask w v line
    rw [hh, List.append_assoc] at htold
    refine ⟨⟨group, .error e⟩, v.ask w line, rfl, .refused ?_ rfl ⟨_, htold⟩, ?_⟩
    · exact hasked.trans (.tell w v (r := line) rfl rfl)
    · exact Program.run_andThen_of_returned (Program.run_request w line v) _
  | ok _ =>
    rw [hanswer] at hasked hh
    refine ⟨⟨group, .ok ()⟩, _, rfl, .agreed hasked rfl hh, ?_⟩
    have hmoved := run_changeEach (ε := FleetError) w (fun id => Change.entered id kind.underWay) group.2 v
    refine (Program.run_andThen_of_returned hmoved fun _ => transitionGroups kind false groups).trans ?_
    exact (Program.run_andThen_return w _ _).symm

/-- All regions are called in their order, whatever they answer; what is returned are those that failed. -/
theorem run_transitionGroups (w : World σ) (kind : Transition) (groups : List Group) (s : Run Fleet σ) :
    ∃ (moves : List Move) (t : Run Fleet σ), (transitionGroups kind false groups).run w s
        = (.returned (moves.filterMap Move.failure?), t)
      ∧ moves.map Move.group = groups ∧ Sending kind moves s t := by
  induction groups generalizing s with
  | nil => exact ⟨[], s, rfl, rfl, .refl kind s⟩
  | cons group groups ih =>
    obtain ⟨m, u, rfl, hsending, hstep⟩ := run_transitionGroups_cons w kind group groups s
    obtain ⟨moves, t, hrest, rfl, hlater⟩ := ih u
    refine ⟨m :: moves, t, ?_, rfl, hsending.trans hlater⟩
    rw [hstep, Program.run_andThen_of_returned hrest]
    cases hf : m.failure? <;> simp [hf]

/-! ## Who is on its way -/

/-- The regions that failed. -/
def failing (moves : List Move) : List Region := (moves.filterMap Move.failure?).map Prod.fst

/-- Every region of the targets was called once, and the targets of those that agreed are on their way. -/
structure Moved (kind : Transition) (targets : Subset) (moves : List Move) (s t : Run Fleet σ) : Prop where
  /-- One call per region, in the order of first appearance, with its targets in their order, -/
  groups_eq : moves.map Move.group
    = (targets.map Instance.region).eraseDups.map fun region => (region, targets.idsIn region)
  /-- and never without any. -/
  nonempty : ∀ m ∈ moves, m.group.2 ≠ []
  /-- Nothing else was asked, -/
  questions_eq : questions t.history = questions s.history ++ moves.map (Move.exchange kind)
  /-- and nothing was refreshed. -/
  refreshes_eq : refreshes t.history = refreshes s.history
  /-- A target whose region did not fail is on its way and cannot be reached; every other instance is as it was. -/
  own_eq : t.own = { s.own with
    instances := s.own.instances.map fun i =>
      if i.id ∈ targets.ids ∧ i.region ∉ failing moves then { i with state := kind.underWay, reachable := false }
      else i }

theorem enter_underWay (i : Instance) (kind : Transition) :
    i.enter kind.underWay = { i with state := kind.underWay, reachable := false } := by
  have hrun : kind.underWay ≠ .running := by cases kind <;> decide
  simp [Instance.enter, hrun]

theorem mem_failing_iff {moves : List Move} {region : Region} :
    region ∈ failing moves ↔ ∃ m ∈ moves, m.group.1 = region ∧ ∃ e, m.answer = .error e := by
  simp only [failing, List.mem_map, List.mem_filterMap]
  constructor
  · rintro ⟨failure, ⟨m, hm, hfailure⟩, rfl⟩
    unfold Move.failure? at hfailure
    split at hfailure
    · rename_i e he
      cases hfailure
      exact ⟨m, hm, rfl, e, he⟩
    · cases hfailure
  · rintro ⟨m, hm, rfl, e, he⟩
    exact ⟨(m.group.1, e), ⟨m, hm, by rw [Move.failure?, he]⟩, rfl⟩

theorem mem_moved {m : Move} {id : InstanceId} : id ∈ m.moved ↔ m.answer = .ok () ∧ id ∈ m.group.2 := by
  unfold Move.moved
  split
  · rename_i e he
    simp [he]
  · rename_i hok
    simp [hok]

/-- Each region is called once, so its answer is that of its group. -/
theorem eq_of_region_eq {targets : Subset} {moves : List Move}
    (hgroups : moves.map Move.group = Subset.byRegion targets) {m m' : Move} (hm : m ∈ moves) (hm' : m' ∈ moves)
    (h : m.group.1 = m'.group.1) : m = m' := by
  have hn : (moves.map fun m => m.group.1).Nodup := by
    have hdistinct := (Subset.parted_byRegion targets).distinct
    rwa [← hgroups, List.map_map] at hdistinct
  exact List.inj_on_of_nodup_map hn hm hm' h

/-- A target whose region did not fail is on its way. -/
theorem moved_of_target {targets : Subset} {moves : List Move}
    (hgroups : moves.map Move.group = Subset.byRegion targets) {i : Instance} (hi : i ∈ targets)
    (hregion : i.region ∉ failing moves) : ∃ m ∈ moves, m.group.1 = i.region ∧ i.id ∈ m.moved := by
  obtain ⟨group, hgroup, hgregion, hid⟩ := (Subset.parted_byRegion targets).exists_group hi
  obtain ⟨m, hm, rfl⟩ := List.mem_map.mp (hgroups ▸ hgroup)
  refine ⟨m, hm, hgregion, mem_moved.mpr ⟨?_, hid⟩⟩
  cases hanswer : m.answer with
  | ok _ => rfl
  | error e => exact absurd (mem_failing_iff.mpr ⟨m, hm, hgregion, e, hanswer⟩) hregion

/-- Who is on its way are the targets of the regions that did not fail. -/
theorem mem_flatMap_moved_iff {targets : Subset} {moves : List Move} {instances : List Instance}
    (hn : (instances.map Instance.id).Nodup) (htargets : ∀ i ∈ targets, i ∈ instances)
    (hgroups : moves.map Move.group = Subset.byRegion targets) {i : Instance} (hi : i ∈ instances) :
    i.id ∈ moves.flatMap Move.moved ↔ i.id ∈ targets.ids ∧ i.region ∉ failing moves := by
  -- an instance with the identifier of a target is that target, so both are of one region
  have hsame : ∀ j ∈ targets, j.id = i.id → j = i := fun j hj =>
    List.inj_on_of_nodup_map hn (htargets j hj) hi
  rw [List.mem_flatMap]
  constructor
  · rintro ⟨m, hm, hid⟩
    obtain ⟨hok, hid⟩ := mem_moved.mp hid
    have hgroup : m.group ∈ Subset.byRegion targets := hgroups ▸ List.mem_map_of_mem hm
    obtain ⟨j, hj, hregion, hji⟩ := (Subset.parted_byRegion targets).exists_mem hgroup hid
    obtain rfl := hsame j hj hji
    refine ⟨List.mem_map_of_mem hj, fun hfailing => ?_⟩
    obtain ⟨m', hm', hregion', e, he⟩ := mem_failing_iff.mp hfailing
    have hmm' : m = m' := by
      refine eq_of_region_eq hgroups hm hm' ?_
      rw [hregion', hregion]
    rw [hmm', he] at hok
    cases hok
  · rintro ⟨hid, hfailing⟩
    obtain ⟨j, hj, hji⟩ := List.mem_map.mp hid
    obtain rfl := hsame j hj hji
    obtain ⟨m, hm, -, hmoved⟩ := moved_of_target hgroups hj hfailing
    exact ⟨m, hm, hmoved⟩

theorem Sending.moved {kind : Transition} {targets : Subset} {moves : List Move} {s t : Run Fleet σ}
    (h : Sending kind moves s t) (hn : (s.own.instances.map Instance.id).Nodup)
    (htargets : ∀ i ∈ targets, i ∈ s.own.instances) (hgroups : moves.map Move.group = Subset.byRegion targets) :
    Moved kind targets moves s t := by
  refine ⟨hgroups.trans (Subset.byRegion_eq targets), fun m hm => ?_, h.asks.questions_eq, h.asks.refreshes_eq, ?_⟩
  · exact (Subset.parted_byRegion targets).nonempty _ (hgroups ▸ List.mem_map_of_mem hm)
  · rw [h.own_eq]
    simp only [updateEach, Fleet.mk.injEq, and_true]
    refine List.map_congr_left fun i hi => ?_
    simp only [mem_flatMap_moved_iff hn htargets hgroups hi, enter_underWay]

/-! ## Moving -/

theorem mem_of_chosen {f : Fleet} {target : Option Target} {default : Fleet → Subset} {targets : Subset}
    (h : f.chosen target default = .ok targets) (hdefault : ∀ i ∈ default f, i ∈ f.instances) :
    ∀ i ∈ targets, i ∈ f.instances := by
  cases target with
  | some target => exact fun i hi => mem_of_resolve h hi
  | none =>
    cases h
    exact hdefault

theorem mem_of_mem_default (kind : Transition) (f : Fleet) : ∀ i ∈ kind.default f, i ∈ f.instances := by
  intro i hi
  cases kind <;> exact (List.mem_filter.mp hi).1

/-- Whatever the regions answer: every region of the targets is called, and the targets of the regions that agree are
on their way. If no region failed they are awaited; otherwise that is the end, and the regions that failed are the
error. -/
theorem moving_isolates_failures (w : World σ) (c : FleetConfig) (patience : Nat) {kind : Transition}
    {target : Option Target} {targets : Subset} {s : FleetRun σ}
    (htargets : s.own.chosen target kind.default = .ok targets)
    (hstate : ∀ expected, kind.required? = some expected → ∀ i ∈ targets, i.state = expected) :
    ∃ moves t, Moved kind targets moves s.toRun t ∧ (moving c patience kind target).run w s.toRun
      = if moves.filterMap Move.failure? = [] then (arrival c patience kind targets).run w t
        else (.failed (.provider (moves.filterMap Move.failure?)), t) := by
  obtain ⟨moves, t, hrun, hgroups, hsending⟩ := run_transitionGroups w kind (Subset.byRegion targets) s.toRun
  refine ⟨moves, t, hsending.moved s.distinct (mem_of_chosen htargets (mem_of_mem_default kind s.own)) hgroups, ?_⟩
  have hresolved := run_targetsOr w target kind.default s.toRun
  rw [htargets] at hresolved
  have hsettle := run_settle w (moves.filterMap Move.failure?) t
  have htransition : (transition kind targets false).run w s.toRun
      = (settle (moves.filterMap Move.failure?)).run w t := Program.run_andThen_of_returned hrun _
  rw [moving_eq, Program.run_andThen_of_returned hresolved, Program.run_andThen_of_returned (run_requireFor w hstate s.toRun)]
  split
  · rename_i hnone
    rw [hnone] at htransition hsettle
    exact Program.run_andThen_of_returned (htransition.trans hsettle) _
  · rename_i hsome
    rw [if_neg hsome] at hsettle
    exact Program.run_andThen_of_failed (htransition.trans hsettle) _

/-! ## Two regions, of which the first fails -/

/-- A cloud in which one region refuses every transition. -/
def stubbornCloud : World Unit where
  answer
    | .cloud (.transition _ region _ _), _ =>
      (if region = ⟨"us-east-1"⟩ then .error (.unknownRegion region) else .ok (), ())
    | r, _ => (r.unanswered, ())

/-- A stopped instance in each of two regions, and one that runs. -/
def halfStopped : FleetRun Unit where
  own := { instances := [.new "i-1" ⟨"eu-west-3"⟩ .stopped, .new "i-2" ⟨"us-east-1"⟩ .stopped,
    .new "i-3" ⟨"eu-west-3"⟩ .running] }
  world := ()
  history := []
  distinct := by decide

/-- Those that are stopped, in another order. -/
def stoppedPair : Subset := [.new "i-2" ⟨"us-east-1"⟩ .stopped, .new "i-1" ⟨"eu-west-3"⟩ .stopped]

/-- One that is stopped, and the one that runs. -/
def mixedPair : Subset := [.new "i-2" ⟨"us-east-1"⟩ .stopped, .new "i-3" ⟨"eu-west-3"⟩ .running]

/-- What moving two of them does. -/
def movePair (kind : Transition) (pair : Subset) : Ending FleetError Subset × Run Fleet Unit :=
  (moving {} 0 kind (some (.ids pair.ids))).run stubbornCloud halfStopped.toRun

/-- Starting two instances and terminating two: the one whose region fails stays as it is, and the other one is on its
way. -/
theorem moving_isolates_failures_first_fails :
    (halfStopped.own.chosen (some (.ids stoppedPair.ids)) Transition.start.default = .ok stoppedPair
      ∧ (movePair .start stoppedPair).1 = .failed (.provider [(⟨"us-east-1"⟩, .unknownRegion ⟨"us-east-1"⟩)])
      ∧ (movePair .start stoppedPair).2.own.instances.map Instance.state = [.pending, .stopped, .running]
      ∧ ∃ moves t, Moved .start stoppedPair moves halfStopped.toRun t
        ∧ movePair .start stoppedPair = if moves.filterMap Move.failure? = [] then
            (arrival {} 0 .start stoppedPair).run stubbornCloud t
          else (.failed (.provider (moves.filterMap Move.failure?)), t))
    ∧ halfStopped.own.chosen (some (.ids mixedPair.ids)) Transition.terminate.default = .ok mixedPair
      ∧ (movePair .terminate mixedPair).1 = .failed (.provider [(⟨"us-east-1"⟩, .unknownRegion ⟨"us-east-1"⟩)])
      ∧ (movePair .terminate mixedPair).2.own.instances.map Instance.state = [.stopped, .stopped, .shuttingDown]
      ∧ ∃ moves t, Moved .terminate mixedPair moves halfStopped.toRun t
        ∧ movePair .terminate mixedPair = if moves.filterMap Move.failure? = [] then
            (arrival {} 0 .terminate mixedPair).run stubbornCloud t
          else (.failed (.provider (moves.filterMap Move.failure?)), t) := by
  refine ⟨⟨rfl, rfl, by decide +kernel, moving_isolates_failures stubbornCloud {} 0 rfl fun _ he i hi => ?_⟩,
    rfl, rfl, by decide +kernel, moving_isolates_failures stubbornCloud {} 0 rfl fun _ he => ?_⟩
  · cases he
    rcases List.mem_pair.mp hi with rfl | rfl <;> rfl
  · cases he

end Fleet

end CloudFleet
