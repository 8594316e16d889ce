import CloudFleet.Proofs.Fleet.Index
import CloudFleet.World.Inert

/-!
# Reachability is never stale

A change disturbs an instance if it sets the state of the instance, which did not run before or does not run after
(`Change.Disturbs`). An instance is vouched for if its address, while it ran, answered a probe, and nothing disturbed
it since (`Vouched`). Then at every moment of every run an instance whose flag is up runs and is vouched for
(`reachable_runs_and_is_vouched_for`).

The invariant is `Sound`, at every prefix of the history. A change that is no confirmation raises no flag and leaves up
only flags of instances that it does not disturb (`undisturbed_of_reachable`); a confirmation comes after the probe that
vouches for it (`vouched_of_answered`).
-/

set_option autoImplicit false

namespace CloudFleet

variable {σ : Type}

namespace Fleet

/-- The instance is known and runs. -/
def Runs (f : Fleet) (id : InstanceId) : Prop := ∃ i, f.get? id = some i ∧ i.state = .running

/-- The instance whose state the change sets. -/
def Change.stateOf? : Change → Option InstanceId
  | .added id .. => some id
  | .loaded record .. => some record.id
  | .entered id _ => some id
  | _ => none

/-- The change sets the state of the instance, which does not run both before and after. -/
def Change.Disturbs (c : Change) (f : Fleet) (id : InstanceId) : Prop :=
  c.stateOf? = some id ∧ ¬(f.Runs id ∧ (f.apply c).Runs id)

/-- Nothing that happened disturbed the instance. -/
def Calm (f : Fleet) (id : InstanceId) : List (Happening Fleet) → Prop
  | [] => True
  | .asked .. :: h => Calm f id h
  | .changed c :: h => ¬Change.Disturbs c f id ∧ Calm (f.apply c) id h

/-- While the instance ran, its address answered a probe, and nothing disturbed the instance since. -/
def Vouched (past : List (Happening Fleet)) (id : InstanceId) : Prop :=
  ∃ before after address port limit, past = before ++ Happening.asked (.probe address port limit) .opened :: after
    ∧ (∃ i, (replay {} before).get? id = some i ∧ i.state = .running ∧ i.address = some address)
    ∧ Calm (replay {} before) id after

/-- Every instance whose flag is up runs and is vouched for. -/
def Sound (past : List (Happening Fleet)) : Prop :=
  ∀ i ∈ (replay {} past).instances, i.reachable = true → i.state = .running ∧ Vouched past i.id

/-! ## Calm times -/

theorem calm_append {f : Fleet} {id : InstanceId} {h k : List (Happening Fleet)} (hh : Calm f id h)
    (hk : Calm (replay f h) id k) : Calm f id (h ++ k) := by
  induction h generalizing f with
  | nil => exact hk
  | cons happening h ih =>
    cases happening with
    | asked r reply => exact ih hh hk
    | changed c => exact ⟨hh.1, ih hh.2 hk⟩

/-- The end of a calm time is calm. -/
theorem Calm.right {f : Fleet} {id : InstanceId} {h k : List (Happening Fleet)} (hc : Calm f id (h ++ k)) :
    Calm (replay f h) id k := by
  induction h generalizing f with
  | nil => exact hc
  | cons happening h ih =>
    cases happening with
    | asked r reply => exact ih (f := f) hc
    | changed c => exact ih hc.2

/-- Requests disturb nothing. -/
theorem OnlyAsked.calm {h : List (Happening Fleet)} (hh : OnlyAsked h) (f : Fleet) (id : InstanceId) : Calm f id h := by
  induction h with
  | nil => trivial
  | cons happening h ih =>
    cases happening with
    | asked r reply => exact ih fun c hc => hh c (List.mem_cons_of_mem _ hc)
    | changed c => exact absurd List.mem_cons_self (hh c)

/-- A confirmation disturbs nothing. -/
theorem calm_confirmed (f : Fleet) (confirmed id : InstanceId) : Calm f id [.changed (Change.confirmed confirmed)] := by
  refine ⟨fun hd => ?_, trivial⟩
  cases hd.1

/-- Who is vouched for stays so in calm times. -/
theorem Vouched.append {past : List (Happening Fleet)} {id : InstanceId} (hv : Vouched past id)
    {more : List (Happening Fleet)} (hc : Calm (replay {} past) id more) : Vouched (past ++ more) id := by
  obtain ⟨before, after, address, port, limit, rfl, hi, hcalm⟩ := hv
  rw [replay_append, replay_asked] at hc
  refine ⟨before, after ++ more, address, port, limit, ?_, hi, calm_append hcalm hc⟩
  rw [List.append_assoc, List.cons_append]

/-- An instance that ran while nothing but requests were made is vouched for by an answer of its address. -/
theorem vouched_of_answered {past new : List (Happening Fleet)} (hnew : OnlyAsked new) {i : Instance} {address : String}
    (hi : (replay {} past).get? i.id = some i) (hrun : i.state = .running) (haddress : i.address = some address)
    (ha : Answered address new) : Vouched (past ++ new) i.id := by
  obtain ⟨port, limit, hm⟩ := ha
  obtain ⟨first, later, rfl⟩ := List.append_of_mem hm
  have hfirst : OnlyAsked first := fun c hc => hnew c (List.mem_append_left _ hc)
  have hlater : OnlyAsked later := fun c hc => hnew c (List.mem_append_right _ (List.mem_cons_of_mem _ hc))
  refine ⟨past ++ first, later, address, port, limit, by rw [List.append_assoc], ?_, hlater.calm _ _⟩
  rw [replay_append, hfirst.replay_eq]
  exact ⟨i, hi, hrun, haddress⟩

/-! ## One change -/

/-- The update gives an instance a state, and leaves its flag up only from running to running. -/
structure Sets (state : InstanceState) (g : Instance → Instance) : Prop where
  id_eq : ∀ i, (g i).id = i.id
  state_eq : ∀ i, (g i).state = state
  flag : ∀ i, (g i).reachable = true → i.reachable = true ∧ i.state = .running ∧ state = .running

theorem sets_enter (state : InstanceState) : Sets state fun i => i.enter state :=
  ⟨fun _ => rfl, fun _ => rfl, fun _ => Instance.running_of_reachable_enter⟩

theorem sets_load (record : InstanceRecord) (state : InstanceState) (status : Option StatusRecord) :
    Sets state fun i => i.load record state status :=
  ⟨fun _ => rfl, fun _ => rfl, fun _ h => Instance.running_of_reachable_enter h⟩

/-- A flag that is up after an update of the state was up before, and the instance runs before and after if it is the
one updated. -/
theorem undisturbed_of_update {f : Fleet} {id : InstanceId} {state : InstanceState} {g : Instance → Instance}
    (hg : Sets state g) {c : Change} (hupdate : f.apply c = f.update id g) (hid : c.stateOf? = some id)
    (hn : (f.instances.map Instance.id).Nodup) (hn' : ((f.apply c).instances.map Instance.id).Nodup) {i : Instance}
    (hi : i ∈ (f.apply c).instances) (hr : i.reachable = true) :
    (∃ j ∈ f.instances, j.id = i.id ∧ j.reachable = true ∧ (j.state = .running → i.state = .running))
      ∧ ¬c.Disturbs f i.id := by
  have hmem := hi
  rw [hupdate] at hmem
  obtain ⟨j, hj, rfl⟩ := List.mem_map.mp hmem
  by_cases hji : j.id = id
  · -- the one updated: its flag is up only if it ran before, and runs after
    rw [if_pos hji] at hi hr ⊢
    obtain ⟨hjr, hjs, rfl⟩ := hg.flag j hr
    refine ⟨⟨j, hj, (hg.id_eq j).symm, hjr, fun _ => hg.state_eq j⟩, fun hd => hd.2 ?_⟩
    refine ⟨⟨j, ?_, hjs⟩, g j, ?_, hg.state_eq j⟩
    · rw [hg.id_eq]
      exact get?_of_mem hn hj
    · exact get?_of_mem hn' hi
  · rw [if_neg hji] at hr ⊢
    refine ⟨⟨j, hj, rfl, hr, fun h => h⟩, fun hd => ?_⟩
    have := hd.1
    rw [hid] at this
    exact hji (Option.some.inj this).symm

/-- What a change leaves up was up before, on an instance that it does not disturb. -/
theorem undisturbed_of_reachable {f : Fleet} {c : Change} (hn : ((f.apply c).instances.map Instance.id).Nodup)
    (hc : ∀ id, c ≠ .confirmed id) {i : Instance} (hi : i ∈ (f.apply c).instances) (hr : i.reachable = true) :
    (∃ j ∈ f.instances, j.id = i.id ∧ j.reachable = true ∧ (j.state = .running → i.state = .running))
      ∧ ¬c.Disturbs f i.id := by
  have hold : (f.instances.map Instance.id).Nodup := by
    have hn := hn
    rw [ids_eq_entries, entries_apply, List.map_append, List.nodup_append] at hn
    rw [ids_eq_entries]
    exact hn.1
  cases c with
  | added id region state =>
    rw [instances_added, List.map_append, List.nodup_append] at hn
    -- an instance known before is not the one added, and the one added has its flag down
    rcases List.mem_append.mp (instances_added f id region state ▸ hi) with hi | hi
    · refine ⟨⟨i, hi, rfl, hr, fun h => h⟩, fun hd => ?_⟩
      exact hn.2.2 i.id (List.mem_map.mpr ⟨i, hi, rfl⟩) id (by simp [Instance.new]) (Option.some.inj hd.1).symm
    · rw [List.mem_singleton.mp hi] at hr
      cases hr
  | loaded record state status => exact undisturbed_of_update (sets_load record state status) rfl rfl hold hn hi hr
  | entered id state => exact undisturbed_of_update (sets_enter state) rfl rfl hold hn hi hr
  | confirmed id => exact absurd rfl (hc id)
  | imageFound region image => exact ⟨⟨i, hi, rfl, hr, fun h => h⟩, fun hd => by cases hd.1⟩

/-- A flag that is up after a confirmation was up before, or is that of a running instance just confirmed. -/
theorem reachable_confirmed {f : Fleet} {id : InstanceId} {i : Instance}
    (hi : i ∈ (f.apply (.confirmed id)).instances) (hr : i.reachable = true) :
    (i ∈ f.instances ∧ i.id ≠ id) ∨ (i.id = id ∧ i.state = .running) := by
  obtain ⟨j, hj, rfl⟩ := List.mem_map.mp hi
  by_cases hji : j.id = id
  · rw [if_pos hji] at hr ⊢
    have hrun : j.state = .running := by
      have hr : j.confirmable = true := hr
      simp only [Instance.confirmable, Bool.and_eq_true, decide_eq_true_eq] at hr
      exact hr.1
    exact Or.inr ⟨hji, hrun⟩
  · rw [if_neg hji] at hr ⊢
    exact Or.inl ⟨hj, hji⟩

/-! ## One step of a history -/

theorem sound_nil : Sound [] := fun i hi => by cases hi

theorem Sound.asked {past : List (Happening Fleet)} (hs : Sound past) (r : Request) (reply : r.Reply) :
    Sound (past ++ [.asked r reply]) := by
  intro i hi hr
  rw [replay_append] at hi
  obtain ⟨hrun, hv⟩ := hs i hi hr
  exact ⟨hrun, hv.append trivial⟩

/-- A change that is no confirmation leaves only flags up that are vouched for. -/
theorem Sound.changed {past : List (Happening Fleet)} (hs : Sound past) {c : Change}
    (hn : (((replay {} past : Fleet).apply c).instances.map Instance.id).Nodup) (hc : ∀ id, c ≠ .confirmed id) :
    Sound (past ++ [.changed c]) := by
  intro i hi hr
  rw [replay_append] at hi
  obtain ⟨⟨j, hj, hid, hjr, hstate⟩, hcalm⟩ := undisturbed_of_reachable hn hc hi hr
  obtain ⟨hrun, hv⟩ := hs j hj hjr
  rw [hid] at hv
  exact ⟨hstate hrun, hv.append ⟨hcalm, trivial⟩⟩

/-- Who is vouched for may be confirmed. -/
theorem Sound.confirmed {past : List (Happening Fleet)} (hs : Sound past) {id : InstanceId} (hv : Vouched past id) :
    Sound (past ++ [.changed (Change.confirmed id)]) := by
  intro i hi hr
  rw [replay_append] at hi
  rcases reachable_confirmed hi hr with ⟨hi, -⟩ | ⟨rfl, hrun⟩
  · obtain ⟨hrun, hv'⟩ := hs i hi hr
    exact ⟨hrun, hv'.append (calm_confirmed _ id i.id)⟩
  · exact ⟨hrun, hv.append (calm_confirmed _ i.id i.id)⟩

/-! ## Runs -/

/-- The history is sound at every moment. -/
def SoundThroughout (h : List (Happening Fleet)) : Prop := ∀ past, past <+: h → Sound past

namespace SoundThroughout

variable {h : List (Happening Fleet)}

theorem now (hs : SoundThroughout h) : Sound h := hs h (List.prefix_refl h)

theorem concat (hs : SoundThroughout h) {happening : Happening Fleet} (hnew : Sound (h ++ [happening])) :
    SoundThroughout (h ++ [happening]) := by
  intro past hp
  rcases List.prefix_concat_iff.mp hp with rfl | hp
  · exact hnew
  · exact hs past hp

theorem asked (hs : SoundThroughout h) {new : List (Happening Fleet)} (hnew : OnlyAsked new) :
    SoundThroughout (h ++ new) := by
  induction new generalizing h with
  | nil => simpa using hs
  | cons happening new ih =>
    cases happening with
    | asked r reply =>
      have := ih (hs.concat (hs.now.asked r reply)) fun c hc => hnew c (List.mem_cons_of_mem _ hc)
      rwa [List.append_assoc] at this
    | changed c => exact absurd List.mem_cons_self (hnew c)

end SoundThroughout

/-- What is remembered is the replay of all that happened, in step, and sound at every moment. -/
structure Watched (s : Run Fleet σ) : Prop where
  inStep : InStep s
  own_eq : s.own = replay {} s.history
  sound : SoundThroughout s.history

namespace Watched

variable {s : Run Fleet σ}

theorem fresh (world : σ) : Watched (Fleet.fresh world) := by
  refine ⟨InStep.fresh world, rfl, fun past hp => ?_⟩
  rw [List.prefix_nil.mp hp]
  exact sound_nil

theorem ask (w : World σ) (hs : Watched s) {r : Request} (hr : r.discovery? = none) : Watched (s.ask w r) := by
  refine ⟨hs.inStep.ask w hr, ?_, hs.sound.concat (hs.sound.now.asked r _)⟩
  rw [Run.own_ask, Run.history_ask, replay_append, ← hs.own_eq]
  rfl

/-- A change that is no confirmation, if it leaves all in step. -/
theorem change (hs : Watched s) {c : Change} (hc : ∀ id, c ≠ .confirmed id) (hstep : InStep (s.change c)) :
    Watched (s.change c) := by
  obtain ⟨x, -, hshow⟩ := hstep.index
  have hn : (((replay {} s.history : Fleet).apply c).instances.map Instance.id).Nodup := by
    rw [← hs.own_eq]
    exact hshow.ids_nodup
  refine ⟨hstep, ?_, hs.sound.concat (hs.sound.now.changed hn hc)⟩
  rw [Run.own_change, Run.history_change, replay_append, ← hs.own_eq]
  rfl

theorem listed (w : World σ) (region : Region) (o : Observation) (hs : Watched s) :
    Watched (listed w region o s) := by
  have hstep := hs.inStep.listed w region o
  by_cases hk : s.own.knows o.record.id = true
  · rw [listed_of_knows w region hk]
    exact hs
  · rw [listed_of_not_knows w region hk] at hstep ⊢
    obtain ⟨x, -, hshow⟩ := hstep.index
    -- the announcement alone is not in step, so request and change go together
    have hasked := hs.sound.now.asked (.announce (.discovered o.record.id region)) ()
    have hn : (((replay {} (s.history ++ [.asked (.announce (.discovered o.record.id region)) ()]) : Fleet).apply
        (.added o.record.id region o.state)).instances.map Instance.id).Nodup := by
      rw [replay_append, ← hs.own_eq]
      exact hshow.ids_nodup
    refine ⟨hstep, ?_, (hs.sound.concat hasked).concat (hasked.changed hn (by simp))⟩
    rw [Run.own_change, Run.history_change, Run.history_ask, replay_append, replay_append, ← hs.own_eq]
    rfl

end Watched

/-- Confirming who is vouched for keeps the history sound. -/
theorem sound_confirmAll (ids : List InstanceId) {t : Run Fleet σ} (hs : SoundThroughout t.history)
    (hv : ∀ id ∈ ids, Vouched t.history id) : SoundThroughout (confirmAll t ids).history := by
  induction ids generalizing t with
  | nil => exact hs
  | cons id ids ih =>
    refine ih (t := t.change (Change.confirmed id)) ?_ fun k hk => ?_
    · exact hs.concat (hs.now.confirmed (hv id List.mem_cons_self))
    · exact (hv k (List.mem_cons_of_mem _ hk)).append (calm_confirmed _ id k)

/-- Probing confirms only who is vouched for. -/
theorem watched_probeRunning (w : World σ) (c : FleetConfig) (groups : List Group) :
    Program.Keeps w Watched (probeRunning c groups : FleetProgram Unit) := by
  intro s hs
  have hstep := (stable_inStep w).probed c groups s hs.inStep
  have hown := Program.own_eq_replay w (probeRunning c groups : FleetProgram Unit) hs.own_eq
  obtain ⟨connections, t, new, hr, -, ha, hq⟩ := run_probeRunning (ε := FleetError) w c groups s
  rw [hr] at hstep hown ⊢
  -- all probes come before the first confirmation, so who is confirmed was a running candidate when they began
  refine ⟨hstep, hown, sound_confirmAll _ ?_ fun id hid => ?_⟩
  · rw [ha.history]
    exact hs.sound.asked ha.asked
  · obtain ⟨⟨id, address⟩, hx, rfl⟩ := List.mem_map.mp hid
    obtain ⟨hm, hanswered⟩ := answered_of_mem_answering ha.history hq hx
    obtain ⟨i, hi, rfl, hrun, haddress, -⟩ := mem_candidates_iff.mp hm
    obtain ⟨x, -, hshow⟩ := hs.inStep.index
    have hget := get?_of_mem hshow.ids_nodup hi
    rw [hs.own_eq] at hget
    rw [ha.history]
    exact vouched_of_answered ha.asked hget hrun haddress hanswered

theorem stable_watched (w : World σ) : Stable w Watched where
  asked _ _ hr _ hs := hs.ask w hr
  observed region o s hs := by
    have hstep := (stable_inStep w).observed region o s hs.inStep
    rw [run_observe] at hstep ⊢
    exact (hs.listed w region o).change (by simp) hstep
  moved s id kind hs := hs.change (by simp) ((stable_inStep w).moved s id kind hs.inStep)
  probed := watched_probeRunning w
  imaged s region image hs := hs.change (by simp) ((stable_inStep w).imaged s region image hs.inStep)

theorem watched_runAll (w : World σ) (c : FleetConfig) (world : σ) (os : List (Nat × Operation)) :
    Watched (runAll w c (fresh world) os) :=
  (stable_watched w).runAll (fun _ _ hr hs => hs.ask w (Request.discovery?_of_commits hr)) c os (Watched.fresh world)

/-- At every moment of a run in step, no identifier is listed twice. -/
theorem ids_nodup_of_prefix {s : Run Fleet σ} (hs : InStep s) (hown : s.own = replay {} s.history)
    {past : List (Happening Fleet)} (hp : past <+: s.history) :
    ((replay {} past : Fleet).instances.map Instance.id).Nodup := by
  obtain ⟨x, -, hshow⟩ := hs.index
  obtain ⟨more, he⟩ := hp
  have hnow := hshow.ids_nodup
  rw [hown, ← he, replay_append, ids_eq_entries] at hnow
  rw [ids_eq_entries]
  exact hnow.sublist ((entries_replay _ more).map Prod.fst).sublist

/-- What a fleet remembers after any operations, however they end, is the replay of all that happened; at every moment
an instance whose flag is up runs and is vouched for; and after a change that disturbs an instance its flag is down. -/
theorem reachable_runs_and_is_vouched_for (w : World σ) (c : FleetConfig) (world : σ) (os : List (Nat × Operation)) :
    (runAll w c (fresh world) os).own = replay {} (runAll w c (fresh world) os).history
    ∧ (∀ past, past <+: (runAll w c (fresh world) os).history →
        ∀ i ∈ (replay {} past : Fleet).instances, i.reachable = true → i.state = .running ∧ Vouched past i.id)
    ∧ ∀ past (change : Change), past ++ [Happening.changed change] <+: (runAll w c (fresh world) os).history →
        ∀ id, change.Disturbs (replay {} past) id →
          ∀ i, ((replay {} past : Fleet).apply change).get? id = some i → i.reachable = false := by
  have hwatched := watched_runAll w c world os
  refine ⟨hwatched.own_eq, hwatched.sound, fun past change hp id hd i hi => ?_⟩
  have hn := ids_nodup_of_prefix hwatched.inStep hwatched.own_eq hp
  rw [replay_append] at hn
  obtain ⟨hm, rfl⟩ := mem_of_get? hi
  have hc : ∀ id, change ≠ .confirmed id := by
    rintro id rfl
    cases hd.1
  cases hr : i.reachable with
  | false => rfl
  | true => exact absurd hd (undisturbed_of_reachable hn hc hm hr).2

/-- A cloud with one instance that always runs and answers. -/
def answeringCloud : World Unit where
  answer
    | .cloud (.describeInstances ..), _ => (.ok [⟨"i-1", some "host-1", "running"⟩], ())
    | .cloud (.describeStatuses ..), _ => (.ok [], ())
    | .cloud (.transition ..), _ => (.ok (), ())
    | .probe .., _ => (.opened, ())
    | r, _ => (r.unanswered, ())

/-- The flag of the instance, after some operations. -/
def flagAfter (os : List (Nat × Operation)) : Option Bool :=
  ((runAll answeringCloud { regions := [⟨"eu-west-3"⟩] } (fresh ()) os).own.get? "i-1").map Instance.reachable

-- a refresh raises the flag, and a request to stop takes it down
example : flagAfter [(0, .refresh .all)] = some true := by decide +kernel

example : flagAfter [(0, .refresh .all), (0, .stop none false)] = some false := by decide +kernel

end Fleet

end CloudFleet
