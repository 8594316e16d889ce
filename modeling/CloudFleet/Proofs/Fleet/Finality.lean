import CloudFleet.Proofs.Fleet.Arrival

/-!
# Who is terminated stays so, unless it is terminated again

A provider revives nobody if it never reports an instance in another state after it reported it terminated
(`NeverRevives`). Whatever a fleet loads it loads in the order of the reports, so with such a provider no observation
takes a terminated instance elsewhere (`Final`, `final_observe`). Starting, stopping and rebooting require other states,
and by default no terminated instance is terminated; but `Fleet.terminate` takes an explicit target in any state, and
takes it to be shutting down if its region agrees (`TerminatedAgain`).

Main statement, for every run: `terminated_is_final_iff`.
-/

set_option autoImplicit false

namespace CloudFleet

variable {σ ε : Type}

namespace Fleet

open Program (Keeps)

/-! ## States of a registry -/

/-- The state of an instance. -/
def state? (f : Fleet) (id : InstanceId) : Option InstanceState := (f.get? id).map Instance.state

/-- The instance is known, and terminated. -/
def Gone (f : Fleet) (id : InstanceId) : Prop := f.state? id = some .terminated

instance (f : Fleet) (id : InstanceId) : Decidable (Gone f id) := inferInstanceAs (Decidable (_ = _))

theorem state?_updateEach (f : Fleet) (ids : List InstanceId) {g : Instance → Instance} (hid : ∀ i, (g i).id = i.id)
    {state : InstanceState} (hstate : ∀ i, (g i).state = state) (id : InstanceId) :
    (f.updateEach ids g).state? id = (f.state? id).map fun now => if id ∈ ids then state else now := by
  have hget := get?_map f (g := fun i => if i.id ∈ ids then g i else i) (fun i => by split <;> simp [hid]) id
  rw [state?, updateEach, hget, state?]
  cases hi : f.get? id with
  | none => rfl
  | some i =>
    obtain rfl := (mem_of_get? hi).2
    by_cases hm : i.id ∈ ids <;> simp [hm, hstate]

theorem state?_enteredEach (f : Fleet) (ids : List InstanceId) (state : InstanceState) (id : InstanceId) :
    (f.updateEach ids fun i => i.enter state).state? id
      = (f.state? id).map fun now => if id ∈ ids then state else now :=
  state?_updateEach f ids (fun i => Instance.id_enter i state) (fun i => Instance.state_enter i state) id

theorem update_eq_updateEach (f : Fleet) (id : InstanceId) (g : Instance → Instance) :
    f.update id g = f.updateEach [id] g := by
  simp [update, updateEach]

theorem state?_entered (f : Fleet) (moved id : InstanceId) (state : InstanceState) :
    (f.apply (.entered moved state)).state? id = (f.state? id).map fun now => if id = moved then state else now := by
  rw [apply, update_eq_updateEach, state?_enteredEach]
  simp

theorem state?_loaded (f : Fleet) (record : InstanceRecord) (state : InstanceState) (status : Option StatusRecord)
    (id : InstanceId) : (f.apply (.loaded record state status)).state? id
      = (f.state? id).map fun now => if id = record.id then state else now := by
  rw [apply, update_eq_updateEach, state?_updateEach f [record.id] (g := fun i => i.load record state status)
    (fun _ => rfl) fun _ => rfl]
  simp

theorem state?_confirmed (f : Fleet) (confirmed id : InstanceId) :
    (f.apply (.confirmed confirmed)).state? id = f.state? id := by
  have hget := get?_map f (g := fun i => if i.id = confirmed then i.confirm else i) (fun i => by split <;> rfl) id
  rw [state?, apply, update, hget, state?, Option.map_map]
  refine congrArg (Option.map · _) (funext fun i => ?_)
  by_cases h : i.id = confirmed <;> simp [h, Instance.confirm]

theorem state?_added_of_ne (f : Fleet) {added id : InstanceId} (h : id ≠ added) (region : Region)
    (state : InstanceState) : (f.apply (.added added region state)).state? id = f.state? id := by
  have hne : (added == id) = false := by simpa using Ne.symm h
  simp [state?, get?, instances_added, List.find?_append, Instance.new, hne]

theorem state?_added_of_not_knows {f : Fleet} {id : InstanceId} (h : ¬f.knows id = true) (region : Region)
    (state : InstanceState) : (f.apply (.added id region state)).state? id = some state := by
  have hnone : f.instances.find? (fun i => i.id == id) = none := by simpa [knows, get?] using h
  simp [state?, get?, instances_added, List.find?_append, Instance.new, hnone]

/-! ## Reports -/

/-- The instances of an answer with their states, as far as these are states. -/
def readings (records : List InstanceRecord) : List (InstanceId × InstanceState) :=
  records.filterMap fun record => (InstanceState.parse? record.state).map fun state => (record.id, state)

/-- The states that the provider reported in an answer. -/
def reported : Happening Fleet → List (InstanceId × InstanceState)
  | .asked (.cloud (.describeInstances ..)) (.ok records) => readings records
  | .asked (.cloud (.launch ..)) (.ok records) => readings records
  | _ => []

/-- All states that the provider reported, first things first. -/
def reports (h : List (Happening Fleet)) : List (InstanceId × InstanceState) := h.flatMap reported

/-- No instance is reported in another state after it was reported terminated. -/
def NeverRevives (reports : List (InstanceId × InstanceState)) : Prop :=
  reports.Pairwise fun earlier later => earlier.1 = later.1 → earlier.2 = .terminated → later.2 = .terminated

instance (reports : List (InstanceId × InstanceState)) : Decidable (NeverRevives reports) :=
  inferInstanceAs (Decidable (List.Pairwise _ _))

/-- The state that is taken over from a report. -/
def load? : Happening Fleet → Option (InstanceId × InstanceState)
  | .changed (Change.loaded record state _) => some (record.id, state)
  | _ => none

/-- All states that were taken over from reports, first things first. -/
def loads (h : List (Happening Fleet)) : List (InstanceId × InstanceState) := h.filterMap load?

theorem reports_append (h k : List (Happening Fleet)) : reports (h ++ k) = reports h ++ reports k :=
  List.flatMap_append

theorem loads_append (h k : List (Happening Fleet)) : loads (h ++ k) = loads h ++ loads k := List.filterMap_append

theorem NeverRevives.left {rs more : List (InstanceId × InstanceState)} (h : NeverRevives (rs ++ more)) :
    NeverRevives rs := h.sublist (List.sublist_append_left rs more)

/-! ## Moments of a history -/

/-- Once the instance is terminated, it is at every later moment. -/
def StaysGone (h : List (Happening Fleet)) (id : InstanceId) : Prop :=
  ∀ past more, past ++ more <+: h → Gone (replay {} past) id → Gone (replay {} (past ++ more)) id

theorem StaysGone.nil (id : InstanceId) : StaysGone [] id := by
  intro past more hp hg
  obtain ⟨rfl, rfl⟩ := List.append_eq_nil_iff.mp (List.prefix_nil.mp hp)
  exact hg

theorem StaysGone.concat {h : List (Happening Fleet)} {id : InstanceId} (hs : StaysGone h id)
    {happening : Happening Fleet} (hnew : Gone (replay {} h) id → Gone (replay {} (h ++ [happening])) id) :
    StaysGone (h ++ [happening]) id := by
  intro past more hp hg
  rcases List.prefix_concat_iff.mp hp with heq | hp
  · rcases List.eq_nil_or_concat more with rfl | ⟨first, last, rfl⟩
    · simpa using hg
    · rw [List.concat_eq_append, ← List.append_assoc] at heq
      obtain ⟨rfl, hlast⟩ := List.append_inj' heq rfl
      cases hlast
      rw [List.concat_eq_append, ← List.append_assoc]
      exact hnew (hs past first (List.prefix_refl _) hg)
  · exact hs past more hp hg

/-! ## Observations -/

/-- Observations were taken over in the order of the reports, with some still to be taken over, and if the provider
revives nobody the instance stayed terminated. -/
structure InOrder (id : InstanceId) (pending : List (InstanceId × InstanceState)) (s : Run Fleet σ) : Prop where
  own_eq : s.own = replay {} s.history
  sublist : (loads s.history ++ pending).Sublist (reports s.history)
  stays : NeverRevives (reports s.history) → StaysGone s.history id

/-- Moreover the instance is terminated only if that was taken over from a report. -/
structure Final (id : InstanceId) (pending : List (InstanceId × InstanceState)) (s : Run Fleet σ) : Prop
    extends InOrder id pending s where
  loaded : Gone s.own id → (id, .terminated) ∈ loads s.history

section Steps

variable {w : World σ} {id : InstanceId} {pending : List (InstanceId × InstanceState)} {s : Run Fleet σ}

/-- Fewer observations may be left. -/
theorem Final.drop (hs : Final id pending s) {rest : List (InstanceId × InstanceState)} (h : rest.Sublist pending) :
    Final id rest s :=
  ⟨⟨hs.own_eq, (List.Sublist.append_left h _).trans hs.sublist, hs.stays⟩, hs.loaded⟩

theorem InOrder.ask (w : World σ) (hs : InOrder id pending s) (r : Request) : InOrder id pending (s.ask w r) := by
  refine ⟨?_, ?_, fun hr => ?_⟩
  · rw [Run.own_ask, Run.history_ask, replay_append, ← hs.own_eq]
    rfl
  · have hnone : loads [Happening.asked r (s.reply w r)] = [] := rfl
    rw [Run.history_ask, loads_append, hnone, List.append_nil, reports_append]
    exact hs.sublist.trans (List.sublist_append_left _ _)
  · rw [Run.history_ask, reports_append] at hr
    refine (hs.stays hr.left).concat fun hg => ?_
    rw [replay_append]
    exact hg

/-- What an answer reports is still to be taken over. -/
theorem Final.reported (hs : Final id [] s) {r : Request} {records : List InstanceRecord}
    (h : Fleet.reported (.asked r (s.reply w r)) = readings records) : Final id (readings records) (s.ask w r) := by
  have hasked := hs.toInOrder.ask w r
  have hloads : loads (s.ask w r).history = loads s.history := by
    rw [Run.history_ask, loads_append]
    exact List.append_nil _
  refine ⟨⟨hasked.own_eq, ?_, hasked.stays⟩, fun hg => hloads ▸ hs.loaded hg⟩
  have hreports : reports (s.ask w r).history = reports s.history ++ readings records := by
    rw [Run.history_ask, reports_append, ← h]
    simp [reports]
  rw [hloads, hreports]
  exact List.Sublist.append_right (by simpa using hs.sublist) _

theorem Final.ask (w : World σ) (hs : Final id pending s) (r : Request) : Final id pending (s.ask w r) := by
  refine ⟨hs.toInOrder.ask w r, fun hg => ?_⟩
  rw [Run.history_ask, loads_append]
  exact List.mem_append_left _ (hs.loaded hg)

/-- A change that loads nothing, and leaves the instance terminated if it is. -/
theorem InOrder.change (hs : InOrder id pending s) {c : Change} (hload : load? (.changed c) = none)
    (hkeep : Gone s.own id → Gone (s.own.apply c) id) : InOrder id pending (s.change c) := by
  have hreports : reports (s.change c).history = reports s.history := by
    rw [Run.history_change, reports_append]
    exact List.append_nil _
  refine ⟨?_, ?_, fun hr => ?_⟩
  · rw [Run.own_change, Run.history_change, replay_append, ← hs.own_eq]
    rfl
  · have hnone : loads [Happening.changed c] = [] := List.filterMap_cons_none hload
    rw [hreports, Run.history_change, loads_append, hnone, List.append_nil]
    exact hs.sublist
  · rw [hreports] at hr
    refine (hs.stays hr).concat fun hg => ?_
    rw [replay_append, ← hs.own_eq] at *
    exact hkeep hg

/-- A change that loads nothing, and after which the instance is terminated if it was. -/
theorem Final.change (hs : Final id pending s) {c : Change} (hload : load? (.changed c) = none)
    (hsame : Gone (s.own.apply c) id ↔ Gone s.own id) : Final id pending (s.change c) := by
  refine ⟨hs.toInOrder.change hload hsame.mpr, fun hg => ?_⟩
  rw [Run.history_change, loads_append]
  exact List.mem_append_left _ (hs.loaded (hsame.mp hg))

/-- What is loaded is the next of the observations still to be taken over. -/
theorem InOrder.load {record : InstanceRecord} {state : InstanceState} (status : Option StatusRecord)
    (hs : InOrder id ((record.id, state) :: pending) s)
    (hloaded : Gone s.own id → (id, .terminated) ∈ loads s.history ∨ id = record.id ∧ state = .terminated) :
    Final id pending (s.change (Change.loaded record state status)) := by
  have hreports : reports (s.change (Change.loaded record state status)).history = reports s.history := by
    rw [Run.history_change, reports_append]
    exact List.append_nil _
  have hloads : loads (s.change (Change.loaded record state status)).history
      = loads s.history ++ [(record.id, state)] := by
    rw [Run.history_change, loads_append]
    rfl
  refine ⟨⟨?_, ?_, fun hr => ?_⟩, fun hg => ?_⟩
  · rw [Run.own_change, Run.history_change, replay_append, ← hs.own_eq]
    rfl
  · rw [hreports, hloads, List.append_assoc]
    exact hs.sublist
  · rw [hreports] at hr
    refine (hs.stays hr).concat fun hg => ?_
    rw [replay_append, ← hs.own_eq] at *
    show (s.own.apply (.loaded record state status)).state? id = _
    rw [state?_loaded, show s.own.state? id = some .terminated from hg]
    by_cases hid : id = record.id
    · -- it was reported terminated before, or is so now
      have hstate : state = .terminated := by
        rcases hloaded hg with hm | ⟨-, hstate⟩
        · exact (List.pairwise_append.mp (hr.sublist hs.sublist)).2.2 _ hm _ List.mem_cons_self hid rfl
        · exact hstate
      simp [hid, hstate]
    · simp [hid]
  · rw [hloads]
    have hg : (s.own.apply (.loaded record state status)).state? id = some .terminated := hg
    rw [state?_loaded] at hg
    by_cases hid : id = record.id
    · obtain ⟨now, -, hstate⟩ := Option.map_eq_some_iff.mp hg
      rw [if_pos hid] at hstate
      simp [hid, hstate]
    · have hsame : s.own.state? id = some .terminated := by simpa [hid] using hg
      rcases hloaded hsame with hm | ⟨he, -⟩
      · exact List.mem_append_left _ hm
      · exact absurd he hid

/-- To take over the next observation leaves the others to be taken over. -/
theorem final_observe (region : Region) {o : Observation} (hs : Final id ((o.record.id, o.state) :: pending) s) :
    Final id pending ((observe region o : Program Fleet ε Unit).run w s).2 := by
  rw [run_observe]
  by_cases hk : s.own.knows o.record.id = true
  · rw [listed_of_knows w region hk]
    exact hs.toInOrder.load o.status fun hg => Or.inl (hs.loaded hg)
  · rw [listed_of_not_knows w region hk]
    by_cases hid : id = o.record.id
    · -- the one that is added was not known before, let alone terminated
      have hunknown : s.own.state? o.record.id = none := by simpa [state?, knows] using hk
      refine ((hs.ask w _).toInOrder.change rfl fun hg => ?_).load o.status fun hg => Or.inr ⟨hid, ?_⟩
      · rw [hid] at hg
        rw [Gone, Run.own_ask, hunknown] at hg
        cases hg
      · have hadded := state?_added_of_not_knows hk region o.state
        rw [hid] at hg
        rw [Gone, Run.own_change, Run.own_ask, memory_apply, hadded] at hg
        exact Option.some.inj hg
    · have hsame := state?_added_of_ne s.own hid region o.state
      have hlisted := (hs.ask w (.announce (.discovered o.record.id region))).change
        (c := .added o.record.id region o.state) rfl (by simp only [Gone, Run.own_ask, hsame])
      exact hlisted.toInOrder.load o.status fun hg => Or.inl (hlisted.loaded hg)

theorem final_observeAll (region : Region) {os : List Observation}
    (hs : Final id (os.map fun o => (o.record.id, o.state)) s) :
    Final id [] ((Program.each (observe region) os : Program Fleet ε Unit).run w s).2 := by
  induction os generalizing s with
  | nil => exact hs
  | cons o os ih =>
    have hone := final_observe (ε := ε) (w := w) region hs
    refine Program.after_andThen (hone.drop (List.nil_sublist _)) fun _ t ht => ih ?_
    rwa [ht] at hone

/-- The observations of an answer are its readings. -/
theorem readings_of_readStates {found : List (InstanceRecord × Option StatusRecord)} {os : List Observation}
    (h : readStates found = .ok os) : os.map (fun o => (o.record.id, o.state)) = readings (found.map Prod.fst) := by
  induction found generalizing os with
  | nil =>
    cases h
    rfl
  | cons x found ih =>
    obtain ⟨record, status⟩ := x
    simp only [readStates] at h
    split at h
    · cases h
    · rename_i state hstate
      split at h
      · cases h
      · rename_i rest hrest
        cases h
        simp [readings, hstate, ih hrest]

/-- What an answer describes is still to be taken over. -/
def toLoad : Cloud.Answer (List (InstanceRecord × Option StatusRecord)) → List (InstanceId × InstanceState)
  | .ok found => readings (found.map Prod.fst)
  | .error _ => []

theorem final_describe (w : World σ) (region : Region) (ids : List InstanceId) (hs : Final id [] s) :
    ∃ answer t, (Cloud.describe region ids : Program Fleet ε _).run w s = (.returned answer, t)
      ∧ Final id (toLoad answer) t := by
  let listing := Request.cloud (.describeInstances region ids)
  let health := Request.cloud (.describeStatuses region ids)
  unfold Cloud.describe Cloud.call
  rw [Program.run_andThen_of_returned (Program.run_request w listing s)]
  cases hrecords : s.reply w listing with
  | error e => exact ⟨.error e, s.ask w listing, rfl, hs.ask w listing⟩
  | ok records =>
    have hlisted : Final id (readings records) (s.ask w listing) := by
      refine hs.reported ?_
      rw [hrecords]
      rfl
    dsimp only
    rw [Program.run_andThen_of_returned (Program.run_request w health _)]
    cases (s.ask w listing).reply w health with
    | error e => exact ⟨.error e, _, rfl, (hlisted.ask w health).drop (List.nil_sublist _)⟩
    | ok statuses =>
      refine ⟨.ok (Cloud.withStatuses records statuses), _, rfl, ?_⟩
      rw [toLoad, map_fst_withStatuses]
      exact hlisted.ask w health

/-- What is described is taken over in the order in which it was reported. -/
theorem final_describeGroups (w : World σ) (id : InstanceId) (groups : List Group) :
    Keeps w (Final id []) (describeGroups groups) := by
  induction groups with
  | nil => exact Keeps.pure _
  | cons group groups ih =>
    intro s hs
    obtain ⟨answer, t, hrun, ht⟩ := final_describe (ε := FleetError) w group.1 group.2 hs
    rw [describeGroups, Program.run_andThen_of_returned hrun]
    cases answer with
    | error e =>
      have hwarned : Keeps w (Final id [])
          (.warn s!"describe in {group.1.name} failed: {e.message}" : FleetProgram Unit) :=
        Keeps.request fun s hs => hs.ask w _
      exact (hwarned.bind fun _ => ih.bind fun _ => Keeps.pure _) t ht
    | ok found =>
      refine Program.after_andThen (Keeps.ofExcept _ t (ht.drop (List.nil_sublist _))) fun os u hu => ?_
      cases hread : readStates found with
      | error e =>
        rw [hread] at hu
        cases hu
      | ok read =>
        rw [hread] at hu
        cases hu
        rw [toLoad, ← readings_of_readStates hread] at ht
        have htaken := final_observeAll (ε := FleetError) (w := w) group.1 ht
        refine Program.after_andThen htaken fun _ u hu => (ih.bind fun _ => Keeps.pure _) u ?_
        rwa [hu] at htaken

/-- What is registered is taken over in the order in which it was reported. -/
theorem final_register (w : World σ) (region : Region) (records : List InstanceRecord)
    (hs : Final id (readings records) s) : Final id [] ((register region records).run w s).2 := by
  induction records generalizing s with
  | nil => exact hs
  | cons record records ih =>
    unfold register
    split
    · exact hs.drop (List.nil_sublist _)
    · rename_i state hstate
      have hnext : Final id ((record.id, state) :: readings records) s := by simpa [readings, hstate] using hs
      have hone := final_observe (ε := FleetError) (w := w) region (o := ⟨record, state, none⟩) hnext
      refine Program.after_andThen (hone.drop (List.nil_sublist _)) fun _ t ht => ?_
      rw [ht] at hone
      refine Program.after_andThen (ih hone) fun ids u hu => ?_
      have hrest := ih hone
      rwa [hu] at hrest

/-- A call that counts as a success was one, or is a dry run that is forgiven. -/
theorem eq_of_forgive_eq_ok {α : Type} {dry : Bool} {default a : α} {answer : Except CloudError α}
    (h : CloudError.forgive dry default answer = .ok a) : answer = .ok a ∨ a = default := by
  cases answer with
  | ok b => exact Or.inl h
  | error e =>
    cases e <;> cases dry <;> cases h
    exact Or.inr rfl

/-- What the regions answer to launches is taken over in the order in which it was reported. -/
theorem final_launchGroups (w : World σ) (id : InstanceId) (c : FleetConfig) (userData : String) (dryRun : Bool)
    (groups : List (Region × Nat)) : Keeps w (Final id []) (launchGroups c userData dryRun groups) := by
  induction groups with
  | nil => exact Keeps.pure _
  | cons group groups ih =>
    refine Keeps.memory.bind fun fleet => (Keeps.ofExcept _).bind fun request s hs => ?_
    let call := Request.cloud (.launch group.1 request dryRun)
    have hcall : (Cloud.launch group.1 request dryRun : FleetProgram _).run w s
        = (.returned (CloudError.forgive dryRun [] (s.reply w call)), s.ask w call) := rfl
    rw [Program.run_andThen_of_returned hcall]
    cases hanswer : CloudError.forgive dryRun [] (s.reply w call) with
    | error e =>
      have hwarned : Keeps w (Final id [])
          (.warn s!"launch in {group.1.name} failed: {e.message}" : FleetProgram Unit) :=
        Keeps.request fun s hs => hs.ask w _
      exact (hwarned.bind fun _ => ih.bind fun _ => Keeps.pure _) _ (hs.ask w call)
    | ok records =>
      have hlaunched : Final id (readings records) (s.ask w call) := by
        rcases eq_of_forgive_eq_ok hanswer with hok | rfl
        · refine hs.reported ?_
          rw [hok]
          rfl
        · exact hs.ask w call
      dsimp only
      rw [Program.run_andThen_of_returned (Program.run_request w _ _)]
      have hregistered := final_register w group.1 records
        (hlaunched.ask w (.announce (.launched group.1 records.length)))
      refine Program.after_andThen hregistered fun new t ht => (ih.bind fun _ => Keeps.pure _) t ?_
      rwa [ht] at hregistered

theorem observant_final (w : World σ) (id : InstanceId) : Observant w (Final (σ := σ) id []) where
  requested _ r _ _ _ hs := hs.ask w r
  described := final_describeGroups w id
  probed := keeps_probeRunning (fun _ r _ _ hs => hs.ask w r) fun _ confirmed hs =>
    hs.change rfl (by simp only [Gone, state?_confirmed])
  imaged _ _ _ hs := hs.change rfl Iff.rfl

end Steps

/-! ## Moving instances -/

theorem run_requireFor_or (w : World σ) (kind : Transition) (targets : Subset) (s : Run Fleet σ) :
    ((∀ expected, kind.required? = some expected → ∀ i ∈ targets, i.state = expected)
      ∧ (requireFor kind targets).run w s = (.returned (), s))
    ∨ ∃ e, (requireFor kind targets).run w s = (.failed e, s) := by
  by_cases h : ∀ expected, kind.required? = some expected → ∀ i ∈ targets, i.state = expected
  · exact Or.inl ⟨h, run_requireFor w h s⟩
  · push Not at h
    obtain ⟨expected, hexpected, i, hi, hstate⟩ := h
    have hsome : (targets.find? fun i => i.state != expected).isSome := by
      simpa using ⟨i, hi, hstate⟩
    obtain ⟨bad, hbad⟩ := Option.isSome_iff_exists.mp hsome
    refine Or.inr ⟨.invalidState bad.id bad.state expected, ?_⟩
    rw [requireFor, hexpected]
    show (requireState expected targets).run w s = _
    rw [requireState, hbad]
    rfl

/-- The instance was terminated, and then a region was called to move it, agreed, and so it was moved. -/
structure Recalled (kind : Transition) (groups : List Group) (id : InstanceId) (s t : Run Fleet σ) : Prop where
  gone : Gone s.own id
  called : ∃ new group, t.history = s.history ++ new ∧ group ∈ groups ∧ id ∈ group.2
    ∧ .asked (.cloud (.transition kind group.1 group.2 false)) (.ok ()) ∈ new

/-- A program adds to what happened. -/
theorem Recalled.after {α : Type} {w : World σ} {kind : Transition} {groups : List Group} {id : InstanceId}
    {s t : Run Fleet σ} (h : Recalled kind groups id s t) (p : Program Fleet ε α) :
    Recalled kind groups id s (p.run w t).2 := by
  obtain ⟨new, group, hh, hgroup, hid, hcall⟩ := h.called
  obtain ⟨later, hh', -⟩ := Program.run_history w p t
  exact ⟨h.gone, new ++ later, group, by rw [hh', hh, List.append_assoc], hgroup, hid, List.mem_append_left _ hcall⟩

/-- Who is moved is not terminated, and nobody else changes. -/
theorem gone_entered (f : Fleet) (moved id : InstanceId) (kind : Transition) :
    Gone (f.apply (.entered moved kind.underWay)) id ↔ Gone f id ∧ id ≠ moved := by
  have hway : kind.underWay ≠ .terminated := by cases kind <;> decide
  rw [Gone, state?_entered, Gone]
  by_cases h : id = moved <;> cases f.state? id <;> simp [h, hway]

/-- No instance was moved yet, or at least not this one. -/
structure Unmoved (id : InstanceId) (s t : Run Fleet σ) : Prop where
  final : Final id [] t
  gone_iff : Gone t.own id ↔ Gone s.own id
  grown : ∃ new, t.history = s.history ++ new

theorem Unmoved.ask {id : InstanceId} {s t : Run Fleet σ} (h : Unmoved id s t) (w : World σ) (r : Request) :
    Unmoved id s (t.ask w r) := by
  obtain ⟨new, hh⟩ := h.grown
  exact ⟨h.final.ask w r, h.gone_iff, _, by rw [Run.history_ask, hh, List.append_assoc]⟩

theorem Unmoved.move {id moved : InstanceId} {s t : Run Fleet σ} (h : Unmoved id s t) (kind : Transition)
    (hne : Gone s.own id → id ≠ moved) : Unmoved id s (t.change (Change.entered moved kind.underWay)) := by
  obtain ⟨new, hh⟩ := h.grown
  have hsame : Gone (t.own.apply (.entered moved kind.underWay)) id ↔ Gone t.own id := by
    rw [gone_entered, h.gone_iff]
    exact and_iff_left_of_imp hne
  exact ⟨h.final.change rfl hsame, hsame.trans h.gone_iff, _, by rw [Run.history_change, hh, List.append_assoc]⟩

/-- Moving instances leaves one terminated unless it was, its region was called, and agreed. -/
theorem keeps_unmoved (w : World σ) (kind : Transition) (dryRun : Bool) (groups : List Group) (id : InstanceId)
    (s : Run Fleet σ) :
    Keeps w (fun t => Unmoved id s t ∨ dryRun = false ∧ Recalled kind groups id s t)
      (transitionGroups kind dryRun groups) := by
  refine keeps_transitionGroups ?_ ?_
  · rintro t r - - (hunmoved | ⟨hd, hrecalled⟩)
    · exact Or.inl (hunmoved.ask w r)
    · exact Or.inr ⟨hd, hrecalled.after (w := w) (.request r : FleetProgram _)⟩
  · rintro hd group hgroup t (hunmoved | ⟨-, hrecalled⟩) hok
    · let call := Request.cloud (.transition kind group.1 group.2 false)
      have hcalled := hunmoved.ask w call
      by_cases hid : Gone s.own id ∧ id ∈ group.2
      · obtain ⟨new, hh⟩ := hunmoved.grown
        refine Or.inr ⟨hd, Recalled.after ⟨hid.1, new ++ [.asked call (.ok ())], group, ?_, hgroup, hid.2, ?_⟩ _⟩
        · rw [Run.history_ask, hok, hh, List.append_assoc]
        · exact List.mem_append_right _ List.mem_cons_self
      · have hmoves : Keeps w (Unmoved id s) (Program.each (fun id => .remember (Change.entered id kind.underWay))
            group.2 : FleetProgram Unit) :=
          Keeps.each _ fun moved hm => Keeps.remember fun u hu =>
            hu.move kind fun hg he => hid ⟨hg, he ▸ hm⟩
        exact Or.inl (hmoves _ hcalled)
    · have hlater := hrecalled.after (w := w)
        (.request (.cloud (.transition kind group.1 group.2 false)) : FleetProgram _)
      exact Or.inr ⟨hd, hlater.after _⟩

/-- Only terminating an explicit target moves an instance that is terminated. -/
theorem explicit_of_chosen {f : Fleet} (hn : (f.instances.map Instance.id).Nodup) {kind : Transition}
    {target : Option Target} {targets : Subset} (htargets : f.chosen target kind.default = .ok targets)
    (hstate : ∀ expected, kind.required? = some expected → ∀ i ∈ targets, i.state = expected) {i : Instance}
    (hi : i ∈ targets) (hg : Gone f i.id) : kind = .terminate ∧ ∃ explicit, target = some explicit := by
  have hterminated : i.state = .terminated := by
    have hget := get?_of_mem hn (mem_of_chosen htargets (mem_of_mem_default kind f) i hi)
    rw [Gone, state?, hget] at hg
    exact Option.some.inj hg
  cases kind with
  | terminate =>
    refine ⟨rfl, ?_⟩
    cases target with
    | some explicit => exact ⟨explicit, rfl⟩
    | none =>
      cases htargets
      have hdefault := (List.mem_filter.mp hi).2
      simp [hterminated] at hdefault
  | start =>
    have := hstate .stopped rfl i hi
    rw [hterminated] at this
    cases this
  | stop | reboot =>
    have := hstate .running rfl i hi
    rw [hterminated] at this
    cases this

/-- An explicit target is terminated that holds an instance which is terminated already, and its region agrees. -/
def TerminatedAgain (w : World σ) (c : FleetConfig) (s : Run Fleet σ) (patience : Nat) (target : Target)
    (id : InstanceId) : Prop :=
  Gone s.own id ∧ ∃ new region ids,
    (runOne w c s (patience, .terminate (some target) false)).history = s.history ++ new
    ∧ id ∈ ids ∧ .asked (.cloud (.transition .terminate region ids false)) (.ok ()) ∈ new

/-- The operation that moves instances. -/
def Operation.moving : Transition → Option Target → Bool → Operation
  | .start => start
  | .stop => stop
  | .reboot => reboot
  | .terminate => terminate

theorem Operation.eq_moving {o : Operation} (h : o.moves = true) :
    ∃ kind target dryRun, o = moving kind target dryRun := by
  cases o with
  | start target dryRun => exact ⟨.start, target, dryRun, rfl⟩
  | stop target dryRun => exact ⟨.stop, target, dryRun, rfl⟩
  | reboot target dryRun => exact ⟨.reboot, target, dryRun, rfl⟩
  | terminate target dryRun => exact ⟨.terminate, target, dryRun, rfl⟩
  | _ => cases h

/-- What follows once the instances are on their way: unless it was a dry run they are awaited, and they are read. -/
def arriving (c : FleetConfig) (patience : Nat) (kind : Transition) (dryRun : Bool) (targets : Subset) :
    FleetProgram Subset := do
  if dryRun then pure () else
    let _ ← pollUntil c patience (.subset targets) c.convergenceTimeout fun f => f.allOf targets.ids kind.awaits
  reread targets

theorem Observant.arriving {w : World σ} {I : Run Fleet σ → Prop} (h : Observant w I) (c : FleetConfig)
    (patience : Nat) (kind : Transition) (dryRun : Bool) (targets : Subset) :
    Keeps w I (Fleet.arriving c patience kind dryRun targets) := by
  unfold Fleet.arriving
  split
  · exact keeps_reread targets
  · exact (h.pollUntil c patience _ _ _).bind fun _ => keeps_reread targets

theorem perform_moving (c : FleetConfig) (patience : Nat) (kind : Transition) (target : Option Target) (dryRun : Bool) :
    (Operation.moving kind target dryRun).perform c patience = discarding (do
      let targets ← targetsOr target kind.default
      requireFor kind targets
      transition kind targets dryRun
      arriving c patience kind dryRun targets) := by
  cases kind <;> rfl

/-- What moves instances runs, whatever it returns. -/
theorem runOne_moving (w : World σ) (c : FleetConfig) (patience : Nat) (kind : Transition) (target : Option Target)
    (dryRun : Bool) (s : Run Fleet σ) :
    runOne w c s (patience, .moving kind target dryRun) = ((do
      let targets ← targetsOr target kind.default
      requireFor kind targets
      transition kind targets dryRun
      arriving c patience kind dryRun targets : FleetProgram Subset).run w s).2 := by
  show (((Operation.moving kind target dryRun).perform c patience).run w s).2 = _
  rw [perform_moving]
  exact Program.run_andThen_pure w _ (fun _ => ()) s

/-- What moves instances leaves one terminated, unless it terminates an explicit target that holds it. -/
theorem final_moving (w : World σ) (c : FleetConfig) (patience : Nat) {id : InstanceId} (kind : Transition)
    (target : Option Target) (dryRun : Bool) {s : Run Fleet σ} (hs : Final id [] s)
    (hn : (s.own.instances.map Instance.id).Nodup) :
    let t := runOne w c s (patience, .moving kind target dryRun)
    Final id [] t ∨ (kind = .terminate ∧ (∃ explicit, target = some explicit) ∧ dryRun = false)
      ∧ ∃ groups, Recalled kind groups id s t := by
  intro t
  have ht : t = _ := runOne_moving w c patience kind target dryRun s
  have hresolved := run_targetsOr w target kind.default s
  cases hchosen : s.own.chosen target kind.default with
  | error e =>
    rw [hchosen] at hresolved
    rw [Program.run_andThen_of_failed hresolved] at ht
    exact Or.inl (ht ▸ hs)
  | ok targets =>
    rw [hchosen] at hresolved
    rw [Program.run_andThen_of_returned hresolved] at ht
    rcases run_requireFor_or w kind targets s with ⟨hstate, hrequired⟩ | ⟨e, hrefused⟩
    · rw [Program.run_andThen_of_returned hrequired] at ht
      have hmoves : Keeps w (fun u => Unmoved id s u ∨ dryRun = false ∧ Recalled kind (Subset.byRegion targets) id s u)
          (transition kind targets dryRun) := (keeps_unmoved w kind dryRun _ id s).bind fun _ => keeps_settle _
      have hmoved := hmoves s (Or.inl ⟨hs, Iff.rfl, [], by simp⟩)
      have hwait := (observant_final w id).arriving c patience kind dryRun targets
      have hall : Final id [] t ∨ dryRun = false ∧ Recalled kind (Subset.byRegion targets) id s t := by
        rw [ht]
        refine Program.after_andThen
          (G := fun t => Final id [] t ∨ dryRun = false ∧ Recalled kind (Subset.byRegion targets) id s t)
          (hmoved.imp_left Unmoved.final) fun _ u hu => ?_
        rw [hu] at hmoved
        rcases hmoved with hunmoved | ⟨hd, hrecalled⟩
        · exact Or.inl (hwait u hunmoved.final)
        · exact Or.inr ⟨hd, hrecalled.after _⟩
      refine hall.imp_right fun ⟨hd, hrecalled⟩ => ?_
      obtain ⟨-, group, -, hgroup, hid, -⟩ := hrecalled.called
      obtain ⟨i, hi, -, rfl⟩ := (Subset.parted_byRegion targets).exists_mem hgroup hid
      obtain ⟨hkind, hexplicit⟩ := explicit_of_chosen hn hchosen hstate hi hrecalled.gone
      exact ⟨⟨hkind, hexplicit, hd⟩, _, hrecalled⟩
    · rw [Program.run_andThen_of_failed hrefused] at ht
      exact Or.inl (ht ▸ hs)

/-- One operation leaves an instance terminated, unless it terminates an explicit target that holds it. -/
theorem final_runOne (w : World σ) (c : FleetConfig) {id : InstanceId} {s : Run Fleet σ} (hs : Final id [] s)
    (hn : (s.own.instances.map Instance.id).Nodup) (o : Nat × Operation) :
    Final id [] (runOne w c s o)
      ∨ ∃ target, o.2 = .terminate (some target) false ∧ TerminatedAgain w c s o.1 target id := by
  obtain ⟨patience, o⟩ := o
  cases ho : o.moves with
  | false =>
    have hperform := (observant_final w id).perform (fun _ _ hs => hs.ask w _) (final_launchGroups w id) c patience ho
    exact Or.inl (hperform s hs)
  | true =>
    obtain ⟨kind, target, dryRun, rfl⟩ := Operation.eq_moving ho
    refine (final_moving w c patience kind target dryRun hs hn).imp_right ?_
    rintro ⟨⟨rfl, ⟨explicit, rfl⟩, rfl⟩, groups, hgone, new, group, hh, -, hid, hcall⟩
    exact ⟨explicit, rfl, hgone, new, group.1, group.2, hh, hid, hcall⟩

/-! ## Terminating again -/

theorem Asks.orders_eq {s t : Run Fleet σ} {asked : List ((r : Request) × r.Reply)} (h : Asks s t asked) :
    orders t.history = orders s.history ++ asked.filter fun x => x.1.moves := by
  rw [orders, h.questions_eq, List.filter_append]
  rfl

theorem mem_orders {h : List (Happening Fleet)} {r : Request} {reply : r.Reply} (hr : r.tells = false)
    (hmoves : r.moves = true) (hm : .asked r reply ∈ h) : ⟨r, reply⟩ ∈ orders h :=
  List.mem_filter.mpr ⟨List.mem_filter.mpr ⟨List.mem_filterMap.mpr ⟨_, hm, rfl⟩, by simp [hr]⟩, hmoves⟩

/-- Nothing but moving instances calls to move them. -/
theorem observant_orders (w : World σ) (called : List ((r : Request) × r.Reply)) :
    Observant w fun t : Run Fleet σ => orders t.history = called := by
  have hasked : ∀ (s : Run Fleet σ) r, r.moves = false → orders s.history = called →
      orders (s.ask w r).history = called := by
    intro s r hm hs
    rw [Run.history_ask, orders_append, orders_asked hm, List.append_nil, hs]
  refine ⟨fun s r _ _ hm hs => hasked s r hm hs, ?_, fun c groups s hs => ?_, fun s _ _ hs => ?_⟩
  · refine keeps_describeGroups (fun s r _ _ hm hs => hasked s r hm hs) fun region o s hs => ?_
    rw [run_observe]
    rw [((asks_listed w region o s).trans (.change _ (Change.loaded o.record o.state o.status))).orders_eq, hs]
    exact List.append_nil _
  · obtain ⟨connections, t, new, hrun, -, -, hq⟩ := run_probeRunning (ε := FleetError) w c groups s
    have hprobes : (probesOf c (s.own.candidates groups) connections).filter (fun x => x.1.moves) = [] := by
      refine List.filter_eq_nil_iff.mpr fun x hx => ?_
      rw [probesOf, ← List.map_uncurry_zip_eq_zipWith] at hx
      obtain ⟨y, -, rfl⟩ := List.mem_map.mp hx
      exact Bool.false_ne_true
    have hconfirmed : Asks t (confirmAll t ((answering (s.own.candidates groups) connections).map Prod.fst)) [] :=
      asks_changeEach _ t
    rw [hrun, hconfirmed.orders_eq, hq.orders_eq, hprobes, hs]
    simp
  · rw [(Asks.change s _).orders_eq, hs]
    exact List.append_nil _

/-- An instance that is terminated again does not stay terminated. -/
theorem TerminatedAgain.not_staysGone {w : World σ} {c : FleetConfig} {s : Run Fleet σ} {patience : Nat}
    {target : Target} {id : InstanceId} (h : TerminatedAgain w c s patience target id)
    (hown : s.own = replay {} s.history) {history : List (Happening Fleet)}
    (hp : (runOne w c s (patience, .terminate (some target) false)).history <+: history) : ¬StaysGone history id := by
  obtain ⟨hgone, new, region, ids, hh, hid, hcall⟩ := h
  have ht : runOne w c s (patience, .terminate (some target) false) = _ :=
    runOne_moving w c patience .terminate (some target) false s
  have hresolved := run_targetsOr w (some target) Transition.terminate.default s
  cases hchosen : s.own.chosen (some target) Transition.terminate.default with
  | error e =>
    -- nothing happens where the target is not found
    rw [hchosen] at hresolved
    rw [ht, Program.run_andThen_of_failed hresolved] at hh
    rw [List.append_right_eq_self.mp hh.symm] at hcall
    cases hcall
  | ok targets =>
    rw [hchosen] at hresolved
    have hrequired : (requireFor .terminate targets).run w s = (.returned (), s) := rfl
    rw [Program.run_andThen_of_returned hresolved, Program.run_andThen_of_returned hrequired] at ht
    obtain ⟨moves, t, hrun, -, hsending⟩ := run_transitionGroups w .terminate (Subset.byRegion targets) s
    obtain ⟨sent, hsent, -⟩ := hsending.sent
    -- whatever follows the calls of the regions, it calls none of them again
    rw [transition, Program.andThen_assoc, Program.run_andThen_of_returned hrun] at ht
    have hlater : orders (runOne w c s (patience, .terminate (some target) false)).history = orders t.history := by
      rw [ht]
      exact ((keeps_settle _).bind fun _ =>
        (observant_orders w (orders t.history)).arriving c patience .terminate false targets) t rfl
    have hprefix : t.history <+: (runOne w c s (patience, .terminate (some target) false)).history := by
      obtain ⟨later, hh', -⟩ := Program.run_history w (do
        settle (moves.filterMap Move.failure?)
        arriving c patience .terminate false targets) t
      rw [ht, hh']
      exact List.prefix_append _ _
    have hordered := hsending.asks.orders_eq
    rw [← hlater, hh, orders_append] at hordered
    have hmem := mem_orders (h := new) rfl rfl hcall
    rw [List.append_cancel_left hordered] at hmem
    obtain ⟨⟨⟨called, group⟩, answer⟩, hm, hexchange⟩ := List.mem_map.mp (List.mem_filter.mp hmem).1
    obtain ⟨hrequest, hanswer⟩ := Sigma.mk.inj hexchange
    cases hrequest
    obtain rfl : answer = .ok () := eq_of_heq hanswer
    have hmoved : id ∈ moves.flatMap Move.moved := List.mem_flatMap.mpr ⟨_, hm, mem_moved.mpr ⟨rfl, hid⟩⟩
    intro hstays
    have hstill := hstays s.history sent (hsent ▸ hprefix.trans hp) (hown ▸ hgone)
    have htown : t.own = replay {} t.history := by
      have := Program.own_eq_replay w (transitionGroups .terminate false (Subset.byRegion targets)) hown
      rwa [hrun] at this
    rw [← hsent, ← htown, hsending.own_eq, Gone, state?_enteredEach] at hstill
    obtain ⟨now, -, hstate⟩ := Option.map_eq_some_iff.mp hstill
    rw [if_pos hmoved] at hstate
    cases hstate

/-! ## Runs -/

/-- Over many operations an instance stays terminated, unless one of them terminates an explicit target that holds it.
-/
theorem final_runAll (w : World σ) (c : FleetConfig) {id : InstanceId} (os : List (Nat × Operation)) {s : Run Fleet σ}
    (hs : Final id [] s) (hwatched : Watched s) :
    Final id [] (runAll w c s os) ∨ ∃ before patience target after,
      os = before ++ (patience, .terminate (some target) false) :: after
      ∧ TerminatedAgain w c (runAll w c s before) patience target id := by
  induction os generalizing s with
  | nil => exact Or.inl hs
  | cons o os ih =>
    obtain ⟨x, -, hshow⟩ := hwatched.inStep.index
    rcases final_runOne w c hs hshow.ids_nodup o with hfinal | ⟨target, ho, hagain⟩
    · have hnext : Watched (runOne w c s o) :=
        (stable_watched w).perform (fun _ _ hr hs => hs.ask w (Request.discovery?_of_commits hr)) c o.1 o.2 s hwatched
      refine (ih hfinal hnext).imp_right ?_
      rintro ⟨before, patience, target, after, rfl, hagain⟩
      exact ⟨o :: before, patience, target, after, rfl, hagain⟩
    · exact Or.inr ⟨[], o.1, target, os, by rw [← ho]; rfl, hagain⟩

theorem final_fresh (id : InstanceId) (world : σ) : Final id [] (fresh world) :=
  ⟨⟨rfl, List.nil_sublist _, fun _ => .nil id⟩, fun hg => by cases hg⟩

/-- Whatever operations were performed, with whatever targets, and however they ended: if the provider revives nobody,
an instance that is terminated stays so at every later moment, exactly unless one of the operations terminated an
explicit target that held it when it was terminated already, and its region agreed. -/
theorem terminated_is_final_iff (w : World σ) (c : FleetConfig) (world : σ) (os : List (Nat × Operation))
    (id : InstanceId) (hprovider : NeverRevives (reports (runAll w c (fresh world) os).history)) :
    StaysGone (runAll w c (fresh world) os).history id
      ↔ ¬∃ before patience target after, os = before ++ (patience, .terminate (some target) false) :: after
        ∧ TerminatedAgain w c (runAll w c (fresh world) before) patience target id := by
  constructor
  · rintro hstays ⟨before, patience, target, after, rfl, hagain⟩
    have hrun : runAll w c (fresh world) (before ++ (patience, .terminate (some target) false) :: after)
        = runAll w c (runOne w c (runAll w c (fresh world) before) (patience, .terminate (some target) false)) after := by
      rw [runAll_append]
      rfl
    obtain ⟨later, hh, -⟩ := history_runAll w c after
      (runOne w c (runAll w c (fresh world) before) (patience, .terminate (some target) false))
    refine hagain.not_staysGone (watched_runAll w c world before).own_eq ?_ hstays
    rw [hrun, hh]
    exact List.prefix_append _ _
  · intro hnone
    rcases final_runAll w c os (final_fresh id world) (Watched.fresh world) with hfinal | hagain
    · exact hfinal.stays hprovider
    · exact absurd hagain hnone

/-! ## A cloud that answers every call to terminate -/

/-- A cloud whose only instance is terminated. Calls to move it succeed, and after one of them the region does not
answer any more. -/
def graveyard : World Bool where
  answer
    | .cloud (.describeInstances region _), asked =>
      (if asked then .error (.unknownRegion region) else .ok [⟨"i-1", none, "terminated"⟩], asked)
    | .cloud (.describeStatuses ..), asked => (.ok [], asked)
    | .cloud (.transition ..), _ => (.ok (), true)
    | r, asked => (r.unanswered, asked)

/-- The fleet after a refresh and more operations. -/
def burying (more : List (Nat × Operation)) : Run Fleet Bool :=
  runAll graveyard { regions := [⟨"eu-west-3"⟩] } (fresh false) ((0, .refresh .all) :: more)

/-- By default the terminated instance is not terminated again. -/
theorem terminated_is_final_iff_graveyard :
    NeverRevives (reports (burying [(1, .terminate none false)]).history)
    ∧ Gone (burying []).own "i-1" ∧ StaysGone (burying [(1, .terminate none false)]).history "i-1" := by
  have hprovider : NeverRevives (reports (burying [(1, .terminate none false)]).history) := by decide +kernel
  refine ⟨hprovider, by decide +kernel, ?_⟩
  refine (terminated_is_final_iff graveyard _ false _ "i-1" hprovider).mpr ?_
  -- the operations are a refresh and a call without a target
  rintro ⟨before, patience, target, after, hsplit, -⟩
  have hmem : (patience, Operation.terminate (some target) false)
      ∈ [(0, .refresh .all), (1, .terminate none false)] := by
    rw [hsplit]
    exact List.mem_append_right _ List.mem_cons_self
  simp at hmem

/-- Terminated again as an explicit target, the instance is shutting down ever after. -/
theorem terminating_revives_the_terminated :
    NeverRevives (reports (burying [(1, .terminate (some (.id "i-1")) false)]).history)
    ∧ (burying []).own.state? "i-1" = some .terminated
    ∧ (burying [(1, .terminate (some (.id "i-1")) false)]).own.state? "i-1" = some .shuttingDown
    ∧ ¬StaysGone (burying [(1, .terminate (some (.id "i-1")) false)]).history "i-1" := by
  have hgone : (burying []).own.state? "i-1" = some .terminated := by decide +kernel
  have hmoved : (burying [(1, .terminate (some (.id "i-1")) false)]).own.state? "i-1" = some .shuttingDown := by
    decide +kernel
  refine ⟨by decide +kernel, hgone, hmoved, fun hstays => ?_⟩
  have hown : ∀ more, (burying more).own = replay {} (burying more).history := fun more =>
    (watched_runAll graveyard _ false _).own_eq
  obtain ⟨new, hh, -⟩ := Program.run_history graveyard
    ((Operation.terminate (some (.id "i-1")) false).perform { regions := [⟨"eu-west-3"⟩] } 1) (burying [])
  have hh : (burying [(1, .terminate (some (.id "i-1")) false)]).history = (burying []).history ++ new := hh
  have hstill := hstays (burying []).history new (hh ▸ List.prefix_refl _) (hown [] ▸ hgone)
  rw [← hh, ← hown, Gone, hmoved] at hstill
  cases hstill

end Fleet

end CloudFleet
