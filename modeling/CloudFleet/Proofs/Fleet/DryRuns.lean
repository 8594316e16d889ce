import CloudFleet.Proofs.Fleet.Creating
import CloudFleet.Proofs.Fleet.Finality

/-!
# A dry run is the real call without its effects

Moving instances begins in the same way for good and as a dry run, and comes to calls of the same regions for the same
instances (`run_transiting`). A dry run makes these calls and changes nothing (`run_trialGroups`); the signal that a call
would have succeeded is no error of it (`Move.refusal?`).

Creating instances is prepared in the same way too, so what it launches is settled before the first launch
(`Fleet.intended`). A dry run launches the same (`Calling.intents_prefix`, `Calling.intents_all`), and changes nothing
unless a region answers with instances (`own_launchGroups_of_errors`).

Main statement, for every registry and whatever is answered: `dry_runs_call_alike_and_change_nothing`.
-/

set_option autoImplicit false

namespace CloudFleet

variable {σ : Type}

namespace Fleet

/-! ## Moving instances -/

/-- The operation that moves instances, for good or as a dry run. -/
def transiting (c : FleetConfig) (patience : Nat) (kind : Transition) (target : Option Target) (dryRun : Bool) :
    FleetProgram Subset :=
  match kind with
  | .start => start c patience target dryRun
  | .stop => stop c patience target dryRun
  | .reboot => reboot c patience target dryRun
  | .terminate => terminate c patience target dryRun

theorem transiting_eq (c : FleetConfig) (patience : Nat) (kind : Transition) (target : Option Target) (dryRun : Bool) :
    transiting c patience kind target dryRun = (do
      let targets ← targetsOr target kind.default
      requireFor kind targets
      transition kind targets dryRun
      arriving c patience kind dryRun targets) := by
  cases kind <;> rfl

/-- A target that exists and passes the check of its states is moved, whether for good or as a dry run. -/
theorem run_transiting (w : World σ) (c : FleetConfig) (patience : Nat) {kind : Transition} {target : Option Target}
    {targets : Subset} (dryRun : Bool) {s : Run Fleet σ} (htargets : s.own.chosen target kind.default = .ok targets)
    (hstate : ∀ expected, kind.required? = some expected → ∀ i ∈ targets, i.state = expected) :
    (transiting c patience kind target dryRun).run w s
      = (transitionGroups kind dryRun (Subset.byRegion targets) >>= fun failures => do
          settle failures
          arriving c patience kind dryRun targets).run w s := by
  have hresolved := run_targetsOr w target kind.default s
  rw [htargets] at hresolved
  rw [transiting_eq, Program.run_andThen_of_returned hresolved,
    Program.run_andThen_of_returned (run_requireFor w hstate s), transition, Program.andThen_assoc]

/-- Instances of a registry that lists no identifier twice are found again. -/
theorem resolve_subset_of_mem {f : Fleet} (hn : (f.instances.map Instance.id).Nodup) {targets : Subset}
    (h : ∀ i ∈ targets, i ∈ f.instances) : f.resolve (.subset targets) = .ok targets := by
  refine lookupAll_eq_ok_iff.mpr ?_
  rw [Subset.ids, List.map_map]
  exact List.map_congr_left fun i hi => get?_of_mem hn (h i hi)

/-! ## Trials -/

namespace Move

/-- The call as a dry run, with its answer. -/
def trial (kind : Transition) (m : Move) : (r : Request) × r.Reply :=
  ⟨.cloud (.transition kind m.group.1 m.group.2 true), m.answer⟩

/-- The region with its error, unless this is the signal that the call would have succeeded. -/
def refusal? (m : Move) : Option Failure :=
  match m.answer with
  | .ok () | .error .dryRun => none
  | .error e => some (m.group.1, e)

/-- A refusal is what is left of the answer to a dry run. -/
theorem refusal?_eq (m : Move) : m.refusal? = match CloudError.forgive true () m.answer with
    | .ok () => none
    | .error e => some (m.group.1, e) := by
  unfold refusal?
  cases m.answer with
  | ok _ => rfl
  | error e => cases e <;> rfl

end Move

/-- One region: its call is all that is asked, nothing changes, and the others follow whatever it answers. -/
theorem run_trialGroups_cons (w : World σ) (kind : Transition) (group : Group) (groups : List Group)
    (s : Run Fleet σ) :
    ∃ (m : Move) (t : Run Fleet σ), m.group = group ∧ Asks s t [m.trial kind] ∧ t.own = s.own
      ∧ (transitionGroups kind true (group :: groups)).run w s
        = (transitionGroups kind true groups >>= fun failures => pure (m.refusal?.toList ++ failures)).run w t := by
  let announcement := Request.announce (.transitionRequested kind group.1 group.2 true)
  let call := Request.cloud (.transition kind group.1 group.2 true)
  let m : Move := ⟨group, (s.ask w announcement).reply w call⟩
  let u := (s.ask w announcement).ask w call
  have hasked : Asks s u [m.trial kind] :=
    (Asks.tell w s (r := announcement) rfl rfl).trans (.ask w _ (r := call) rfl)
  have hcall : (Cloud.transition kind group.1 group.2 true : FleetProgram _).run w (s.ask w announcement)
      = (.returned (CloudError.forgive true () m.answer), u) := rfl
  have hrefusal := m.refusal?_eq
  rw [transitionGroups, Program.run_andThen_of_returned (Program.run_request w announcement s),
    Program.run_andThen_of_returned hcall]
  cases hanswer : CloudError.forgive true () m.answer with
  | error e =>
    let line := Request.log ⟨.warn, s!"{kind.name} in {group.1.name} failed: {e.message}"⟩
    rw [hanswer] at hrefusal
    refine ⟨m, u.ask w line, rfl, by simpa using hasked.trans (.tell w u (r := line) rfl rfl), rfl, ?_⟩
    rw [hrefusal]
    exact Program.run_andThen_of_returned (Program.run_request w line u) _
  | ok _ =>
    rw [hanswer] at hrefusal
    refine ⟨m, u, rfl, hasked, rfl, ?_⟩
    rw [hrefusal]
    exact (Program.run_andThen_return w _ u).symm

/-- A dry run calls all regions in their order, whatever they answer, asks nothing else and changes nothing. -/
theorem run_trialGroups (w : World σ) (kind : Transition) (groups : List Group) (s : Run Fleet σ) :
    ∃ (trials : List Move) (t : Run Fleet σ),
      (transitionGroups kind true groups).run w s = (.returned (trials.filterMap Move.refusal?), t)
      ∧ trials.map Move.group = groups ∧ Asks s t (trials.map (Move.trial kind)) ∧ t.own = s.own := by
  induction groups generalizing s with
  | nil => exact ⟨[], s, rfl, rfl, .refl s, rfl⟩
  | cons group groups ih =>
    obtain ⟨m, u, rfl, hasks, hown, hstep⟩ := run_trialGroups_cons w kind group groups s
    obtain ⟨trials, t, hrest, rfl, hlater, hown'⟩ := ih u
    refine ⟨m :: trials, t, ?_, rfl, hasks.trans hlater, hown'.trans hown⟩
    rw [hstep, Program.run_andThen_of_returned hrest]
    cases hrefusal : m.refusal? <;> simp [hrefusal]

/-- A dry run made a trial for every region of the targets, and that was all. -/
structure Rehearsed (kind : Transition) (targets : Subset) (trials : List Move) (s t : Run Fleet σ)
    (ending : Ending FleetError Subset) : Prop where
  groups_eq : trials.map Move.group = Subset.byRegion targets
  /-- Nothing else was asked: nothing was described and nothing probed. -/
  questions_eq : questions t.history = questions s.history ++ trials.map (Move.trial kind)
  own_eq : t.own = s.own
  /-- It succeeds exactly if every region answered with success or the signal that the call would have succeeded;
  otherwise the other errors are the failure. -/
  ending_eq : ending = if trials.filterMap Move.refusal? = [] then .returned targets
    else .failed (.provider (trials.filterMap Move.refusal?))

/-- The operation itself called every region of the targets, and what failed is its failure. -/
structure Performed (kind : Transition) (targets : Subset) (moves : List Move) (s t : Run Fleet σ)
    (ending : Ending FleetError Subset) : Prop where
  groups_eq : moves.map Move.group = Subset.byRegion targets
  /-- It called no region to move instances but these, even while it waited. -/
  orders_eq : orders t.history = orders s.history ++ moves.map (Move.exchange kind)
  failed : moves.filterMap Move.failure? ≠ [] → ending = .failed (.provider (moves.filterMap Move.failure?))
  /-- The signal that a dry run would have succeeded is an error like any other. -/
  signalled : ∀ m ∈ moves, m.answer = .error .dryRun →
    ∃ failures, ending = .failed (.provider failures) ∧ (m.group.1, .dryRun) ∈ failures

section Moving

variable {kind : Transition} {target : Option Target} {targets : Subset}

theorem rehearsed_transiting (w : World σ) (c : FleetConfig) (patience : Nat) {s : FleetRun σ}
    (htargets : s.own.chosen target kind.default = .ok targets)
    (hstate : ∀ expected, kind.required? = some expected → ∀ i ∈ targets, i.state = expected) :
    ∃ trials t ending, (transiting c patience kind target true).run w s.toRun = (ending, t)
      ∧ Rehearsed kind targets trials s.toRun t ending := by
  obtain ⟨trials, t, hrun, hgroups, hasks, hown⟩ := run_trialGroups w kind (Subset.byRegion targets) s.toRun
  refine ⟨trials, t, _, ?_, hgroups, hasks.questions_eq, hown, rfl⟩
  have hreread : (arriving c patience kind true targets).run w t = (.returned targets, t) := by
    have hfound := resolve_subset_of_mem s.distinct (mem_of_chosen htargets (mem_of_mem_default kind s.own))
    show (Program.ofExcept (t.own.resolve (.subset targets)) : FleetProgram Subset).run w t = _
    rw [hown, hfound]
    rfl
  have hsettle := run_settle w (trials.filterMap Move.refusal?) t
  rw [run_transiting w c patience true htargets hstate, Program.run_andThen_of_returned hrun]
  split
  · rename_i hnone
    rw [if_pos hnone] at hsettle
    rw [Program.run_andThen_of_returned hsettle, hreread]
  · rename_i hsome
    rw [if_neg hsome] at hsettle
    exact Program.run_andThen_of_failed hsettle _

theorem performed_transiting (w : World σ) (c : FleetConfig) (patience : Nat) {s : Run Fleet σ}
    (htargets : s.own.chosen target kind.default = .ok targets)
    (hstate : ∀ expected, kind.required? = some expected → ∀ i ∈ targets, i.state = expected) :
    ∃ moves t ending, (transiting c patience kind target false).run w s = (ending, t)
      ∧ Performed kind targets moves s t ending := by
  obtain ⟨moves, u, hrun, hgroups, hsending⟩ := run_transitionGroups w kind (Subset.byRegion targets) s
  have hsettle := run_settle w (moves.filterMap Move.failure?) u
  have hstart := run_transiting w c patience false htargets hstate
  rw [Program.run_andThen_of_returned hrun] at hstart
  generalize hresult : (transiting c patience kind target false).run w s = result at hstart
  obtain ⟨ending, t⟩ := result
  have hfailed : moves.filterMap Move.failure? ≠ [] →
      ending = .failed (.provider (moves.filterMap Move.failure?)) := by
    intro hsome
    rw [if_neg hsome] at hsettle
    rw [Program.run_andThen_of_failed hsettle] at hstart
    exact (Prod.mk.inj hstart).1
  refine ⟨moves, t, ending, rfl, hgroups, ?_, hfailed, fun m hm hanswer => ?_⟩
  · -- whatever follows the calls of the regions, it calls none of them again
    have hlater := ((keeps_settle (moves.filterMap Move.failure?)).bind fun _ =>
      (observant_orders w (orders u.history)).arriving c patience kind false targets) u rfl
    rw [← hstart] at hlater
    have hmoves : (moves.map (Move.exchange kind)).filter (fun x => x.1.moves) = moves.map (Move.exchange kind) := by
      refine List.filter_eq_self.mpr fun x hx => ?_
      obtain ⟨m, -, rfl⟩ := List.mem_map.mp hx
      rfl
    rw [hlater, hsending.asks.orders_eq, hmoves]
  · have hmem : (m.group.1, .dryRun) ∈ moves.filterMap Move.failure? :=
      List.mem_filterMap.mpr ⟨m, hm, by rw [Move.failure?, hanswer]⟩
    exact ⟨_, hfailed (List.ne_nil_of_mem hmem), hmem⟩

end Moving

/-! ## Launches -/

/-- The call that launches instances, if that is what happened. -/
def launchCall? : Happening Fleet → Option LaunchCall
  | .asked (.cloud (.launch region request dryRun)) answer => some ⟨region, request, dryRun, answer⟩
  | _ => none

/-- The calls that launch instances, with their answers. -/
def launchCalls (h : List (Happening Fleet)) : List LaunchCall := h.filterMap launchCall?

theorem launchCalls_append (h k : List (Happening Fleet)) : launchCalls (h ++ k) = launchCalls h ++ launchCalls k :=
  List.filterMap_append

/-- Launches are among what is committed. -/
theorem launchCalls_eq (h : List (Happening Fleet)) :
    launchCalls h = (commitments h).filterMap fun x => launchCall? (.asked x.1 x.2) := by
  induction h with
  | nil => rfl
  | cons happening h ih =>
    cases happening with
    | changed c => exact ih
    | asked r reply =>
      cases hr : r.commits with
      | true =>
        rw [commitments_committed hr, List.filterMap_cons, ← ih]
        rfl
      | false =>
        have hnone : launchCall? (.asked r reply) = none := by
          unfold launchCall?
          split
          · rename_i heq
            cases heq
            cases hr
          · rfl
        rw [commitments_asked hr, ← ih]
        exact List.filterMap_cons_none hnone

theorem launchCalls_of_commitments {h : List (Happening Fleet)} {calls : List LaunchCall}
    (hcalls : commitments h = calls.map LaunchCall.exchange) : launchCalls h = calls := by
  rw [launchCalls_eq, hcalls, List.filterMap_map]
  exact List.filterMap_some

theorem launchCalls_of_uncommitted {h : List (Happening Fleet)} (hnone : commitments h = []) : launchCalls h = [] := by
  rw [launchCalls_eq, hnone]
  rfl

/-- What a call asks a region for. -/
def LaunchCall.intent (call : LaunchCall) : Region × LaunchRequest := (call.region, call.request)

/-- What is asked of the regions of some entries, with the images that are known. -/
def intentsOf (c : FleetConfig) (f : Fleet) (userData : String) (entries : List (Region × Nat)) :
    List (Region × LaunchRequest) :=
  entries.filterMap fun entry => (f.image? entry.1).map fun image => (entry.1, requestOf c image entry.2 userData)

section Calling

variable {c : FleetConfig} {f : Fleet} {userData : String} {dryRun : Bool} {entries : List (Region × Nat)}
  {calls : List LaunchCall}

theorem Calling.intents_prefix (h : Calling (Serves c f userData dryRun) entries calls) :
    calls.map LaunchCall.intent <+: intentsOf c f userData entries := by
  refine h.prefix_filterMap fun entry call ⟨image, answer, himage, hcall⟩ => ?_
  rw [himage, hcall]
  rfl

theorem Calling.intents_all (h : Calling (Serves c f userData dryRun) entries calls)
    (hreadable : ∀ call ∈ calls, call.readable = true) :
    calls.map LaunchCall.intent = intentsOf c f userData entries := by
  refine h.eq_filterMap (fun entry call ⟨image, answer, himage, hcall⟩ => ?_) hreadable
  rw [himage, hcall]
  rfl

theorem Calling.dryRun_eq (h : Calling (Serves c f userData dryRun) entries calls) :
    ∀ call ∈ calls, call.dryRun = dryRun := by
  have hone : ∀ {entry : Region × Nat} {call : LaunchCall}, Serves c f userData dryRun entry call →
      call.dryRun = dryRun := by
    rintro entry call ⟨image, answer, -, rfl⟩
    rfl
  induction h with
  | nil => simp
  | cons h _ _ ih => exact List.forall_mem_cons.mpr ⟨hone h, ih⟩
  | ended h _ _ => exact List.forall_mem_cons.mpr ⟨hone h, by simp⟩

end Calling

/-- Images that are known stay what they are. -/
theorem intentsOf_replay (c : FleetConfig) {f : Fleet} (userData : String) {entries : List (Region × Nat)}
    (hfound : ∀ entry ∈ entries, (f.image? entry.1).isSome = true) (h : List (Happening Fleet)) :
    intentsOf c (replay f h) userData entries = intentsOf c f userData entries := by
  refine List.filterMap_congr fun entry hm => ?_
  obtain ⟨image, himage⟩ := Option.isSome_iff_exists.mp (hfound entry hm)
  rw [himage, image?_replay_of_eq himage h]

/-- The launches of a program that follows the call of a region and what is told of it: this call, and others. -/
theorem launchCalls_after_call {α : Type} (w : World σ) (p : FleetProgram α) (region : Region)
    (request : LaunchRequest) (dryRun : Bool) (told : Request) {s t : Run Fleet σ} {new : List (Happening Fleet)}
    (ht : t = (s.ask w (.cloud (.launch region request dryRun))).ask w told)
    (hnew : (p.run w t).2.history = s.history ++ new) :
    callIn w s region request dryRun ∈ launchCalls new
      ∧ ∃ later, (p.run w t).2.history = t.history ++ later ∧ launchCalls later ⊆ launchCalls new := by
  subst ht
  let call := Request.cloud (.launch region request dryRun)
  obtain ⟨later, hlater, -⟩ := Program.run_history w p ((s.ask w call).ask w told)
  have heq : new = .asked call (s.reply w call) :: .asked told ((s.ask w call).reply w told) :: later := by
    refine List.append_cancel_left (hnew.symm.trans (hlater.trans ?_))
    simp
  subst heq
  refine ⟨List.mem_filterMap.mpr ⟨_, List.mem_cons_self, rfl⟩, later, hlater, ?_⟩
  exact List.filterMap_subset _ fun _ hm => List.mem_cons_of_mem _ (List.mem_cons_of_mem _ hm)

/-- Where every region answers with an error, launching changes nothing. The signal that a dry run would have succeeded
is such an answer, too. -/
theorem own_launchGroups_of_errors (w : World σ) (c : FleetConfig) (userData : String) (dryRun : Bool)
    (groups : List (Region × Nat)) {s : Run Fleet σ} {new : List (Happening Fleet)}
    (hfound : ∀ group ∈ groups, (s.own.image? group.1).isSome = true)
    (hnew : ((launchGroups c userData dryRun groups).run w s).2.history = s.history ++ new)
    (herrors : ∀ call ∈ launchCalls new, ∃ e, call.answer = .error e) :
    ((launchGroups c userData dryRun groups).run w s).2.own = s.own := by
  induction groups generalizing s new with
  | nil => rfl
  | cons group groups ih =>
    obtain ⟨region, count⟩ := group
    obtain ⟨image, himage⟩ := Option.isSome_iff_exists.mp (hfound _ List.mem_cons_self)
    let call := Request.cloud (.launch region (requestOf c image count userData) dryRun)
    have hothers : ∀ g ∈ groups, (s.own.image? g.1).isSome = true := fun g hg =>
      hfound g (List.mem_cons_of_mem _ hg)
    rw [run_launchGroups_cons w c userData dryRun region count groups (launchRequest_of_image himage)] at hnew ⊢
    cases hanswer : CloudError.forgive dryRun [] (s.reply w call) with
    | error e =>
      simp only [call] at hanswer
      rw [hanswer] at hnew
      obtain ⟨-, later, hlater, hsub⟩ := launchCalls_after_call w _ region _ dryRun _ rfl hnew
      exact ih hothers hlater fun x hx => herrors x (hsub hx)
    | ok records =>
      simp only [call] at hanswer
      rw [hanswer] at hnew
      obtain ⟨hcalled, later, hlater, hsub⟩ := launchCalls_after_call w _ region _ dryRun _ rfl hnew
      -- an error that counts as success is the signal of a dry run, and registers nobody
      obtain rfl : records = [] := by
        refine (eq_of_forgive_eq_ok hanswer).resolve_left fun hok => ?_
        obtain ⟨e, he⟩ := herrors _ hcalled
        exact nomatch hok.symm.trans he
      exact ih hothers hlater fun x hx => herrors x (hsub hx)

/-! ## Creating instances -/

/-- What is left once the creation of instances was prepared. -/
inductive Prepared
  /-- Nothing: that is how it ended. -/
  | done (launch : Launch)
  /-- The entries are to be launched, with this text to run. -/
  | launching (userData : String) (entries : List (Region × Nat))

/-- Everything before the first launch: images, the plan, the script and the operator's consent. -/
def preparing (c : FleetConfig) (plan : Plan) : FleetProgram Prepared := do
  let failures ← selectImages c plan.regions
  settle failures
  let fleet ← Program.memory
  let missing := fleet.shortfall plan
  match wordSum? (missing.map Prod.snd) with
  | none => .crash
  | some total =>
    let _ ← Program.request (.announce (.launchPlanned missing fleet.running.length total))
    if total = 0 then pure (.done (.launched []))
    else
      let userData ← bootstrap c
      let consent ← Program.request (launchQuestion total)
      if consent = true then pure (.launching userData (missing.filter fun entry => 0 < entry.2))
      else
        let _ ← Program.request (.announce .launchAborted)
        pure (.done .aborted)

/-- What follows the preparation. -/
def launching (c : FleetConfig) (patience : Nat) (dryRun : Bool) : Prepared → FleetProgram Launch
  | .done launch => pure launch
  | .launching userData entries =>
    launchGroups c userData dryRun entries >>= fun found => awaitLaunched c patience dryRun found.1 found.2

theorem create_eq (c : FleetConfig) (patience : Nat) (plan : Plan) (dryRun : Bool) :
    create c patience plan dryRun = preparing c plan >>= launching c patience dryRun := by
  unfold create preparing
  simp only [Program.andThen_assoc]
  refine congrArg _ (funext fun failures => congrArg _ (funext fun _ => congrArg _ (funext fun fleet => ?_)))
  cases wordSum? ((fleet.shortfall plan).map Prod.snd) with
  | none => rfl
  | some total =>
    dsimp only
    rw [Program.andThen_assoc]
    refine congrArg _ (funext fun _ => ?_)
    by_cases hzero : total = 0
    · rw [if_pos hzero, if_pos hzero]
      rfl
    · rw [if_neg hzero, if_neg hzero, launchShortfall_eq]
      simp only [Program.andThen_assoc]
      refine congrArg _ (funext fun userData => congrArg _ (funext fun consent => ?_))
      cases consent <;> rfl

/-- Since the first run nothing was launched, and no instance changed. -/
def Unlaunched (s t : Run Fleet σ) : Prop :=
  ∃ new, t.history = s.history ++ new ∧ launchCalls new = [] ∧ t.own.instances = s.own.instances

theorem Unlaunched.refl (s : Run Fleet σ) : Unlaunched s s := ⟨[], by simp, rfl, rfl⟩

theorem Unlaunched.ask {s t : Run Fleet σ} (h : Unlaunched s t) (w : World σ) {r : Request}
    (hr : ∀ reply : r.Reply, launchCall? (.asked r reply) = none) : Unlaunched s (t.ask w r) := by
  obtain ⟨new, hh, hnone, hinstances⟩ := h
  refine ⟨new ++ [.asked r (t.reply w r)], by simp [hh], ?_, hinstances⟩
  rw [launchCalls_append, hnone, List.nil_append]
  exact List.filterMap_cons_none (hr _)

/-- The preparation launches nothing, and leaves all instances alone. -/
theorem unlaunched_preparing (w : World σ) (c : FleetConfig) (plan : Plan) (s : Run Fleet σ) :
    Unlaunched s ((preparing c plan).run w s).2 := by
  have hask : ∀ r : Request, (∀ reply : r.Reply, launchCall? (.asked r reply) = none) →
      Program.Keeps w (Unlaunched s) (.request r : FleetProgram r.Reply) := fun r hr =>
    Program.Keeps.request fun t ht => ht.ask w hr
  have hselect : Program.Keeps w (Unlaunched s) (selectImages c plan.regions) := by
    rintro t ⟨new, hh, hnone, hinstances⟩
    obtain ⟨looked, u, hlooking, hends⟩ := run_selectImages (c := c) w plan.regions (fun _ h => h) t
    have hu : Unlaunched s u := by
      refine ⟨new ++ looked, ?_, ?_, ?_⟩
      · rw [hlooking.history, hh, List.append_assoc]
      · rw [launchCalls_append, hnone, launchCalls_of_uncommitted hlooking.lookups.uncommitted]
        rfl
      · rw [hlooking.own, hlooking.lookups.browses.instances, hinstances]
    rcases hends with ⟨failures, hrun, -⟩ | ⟨region, hrun, -⟩ <;> rw [hrun] <;> exact hu
  have hboot : Program.Keeps w (Unlaunched s) (bootstrap c) := by
    unfold bootstrap
    split
    · exact Program.Keeps.pure _
    · refine (hask _ fun _ => rfl).bind fun text => ?_
      cases text with
      | ok text => exact Program.Keeps.pure _
      | error e => exact Program.Keeps.raise _
  refine (hselect.bind fun failures => (keeps_settle _).bind fun _ => Program.Keeps.memory.bind fun fleet => ?_) s
    (.refl s)
  dsimp only
  split
  · exact Program.Keeps.crash
  · refine (hask _ fun _ => rfl).bind fun _ => ?_
    split
    · exact Program.Keeps.pure _
    · refine hboot.bind fun userData => (hask _ fun _ => rfl).bind fun consent => ?_
      split
      · exact Program.Keeps.pure _
      · exact (hask _ fun _ => rfl).bind fun _ => Program.Keeps.pure _

/-- Whatever is to be launched after the preparation has an image. -/
theorem preparing_ensures (w : World σ) (c : FleetConfig) (plan : Plan) (s : Run Fleet σ) :
    Program.Ensures w (preparing c plan) s
      (fun prepared t => ∀ userData entries, prepared = .launching userData entries →
        ∀ entry ∈ entries, (t.own.image? entry.1).isSome = true)
      fun e _ => e.missing = false := by
  refine (selectImages_ensures w c plan.regions s).bind fun failures t ⟨_, hfound⟩ => ?_
  refine (settle_ensures w failures t).bind fun _ u ⟨hu, hnone⟩ => .consult ?_
  subst hu
  have himages := hfound hnone
  dsimp only
  split
  · exact .crash
  · refine .ask ?_
    split
    · exact .pure fun _ _ heq => by cases heq
    · have hkeep := (stable_images w plan.regions).toObservant.bootstrap c
      refine ((bootstrap_ensures w c _).keeping hkeep (by exact himages)).bind fun userData v ⟨_, hv⟩ => .ask ?_
      split
      · refine .pure fun _ _ heq entry hm => ?_
        cases heq
        exact hv _ (mem_regions_of_mem_shortfall (List.mem_filter.mp hm).1)
      · exact .ask (.pure fun _ _ heq => by cases heq)

/-- What creating instances is to launch, as it stands before any region is asked. -/
def intended (w : World σ) (c : FleetConfig) (plan : Plan) (s : Run Fleet σ) : List (Region × LaunchRequest) :=
  match (preparing c plan).run w s with
  | (.returned (.launching userData entries), t) => intentsOf c t.own userData entries
  | (.returned (.done _), _) | (.failed _, _) | (.crashed, _) | (.stalled, _) => []

/-- Since the first run the regions were asked for what was intended. -/
structure Attempted (intents : List (Region × LaunchRequest)) (dryRun : Bool) (s t : Run Fleet σ)
    (new : List (Happening Fleet)) : Prop where
  history : t.history = s.history ++ new
  flagged : ∀ call ∈ launchCalls new, call.dryRun = dryRun
  /-- The first of them were asked, in order, -/
  intents_prefix : (launchCalls new).map LaunchCall.intent <+: intents
  /-- and all of them unless one answered with a state that is none. -/
  intents_all : (∀ call ∈ launchCalls new, call.readable = true) → (launchCalls new).map LaunchCall.intent = intents
  /-- If they all answered the dry run with an error, be it the signal or another one, nothing changed. -/
  unchanged : dryRun = true → (∀ call ∈ launchCalls new, ∃ e, call.answer = .error e) →
    t.own.instances = s.own.instances

theorem Unlaunched.attempted {s t : Run Fleet σ} (h : Unlaunched s t) (dryRun : Bool) :
    ∃ new, Attempted [] dryRun s t new := by
  obtain ⟨new, hh, hnone, hinstances⟩ := h
  exact ⟨new, hh, by simp [hnone], by simp [hnone], by simp [hnone], fun _ _ => hinstances⟩

/-- A dry run does nothing after the launches. -/
theorem run_launching_dry (w : World σ) (c : FleetConfig) (patience : Nat) (userData : String)
    (entries : List (Region × Nat)) (s : Run Fleet σ) :
    ((launching c patience true (.launching userData entries)).run w s).2
      = ((launchGroups c userData true entries).run w s).2 := by
  rw [launching, Program.run_andThen]
  cases (launchGroups c userData true entries).run w s with
  | mk ending t =>
    cases ending with
    | returned found =>
      obtain ⟨failures, ids⟩ := found
      cases failures <;> rfl
    | _ => rfl

/-- After the preparation the regions are asked for what was intended. -/
theorem attempted_launching (w : World σ) (c : FleetConfig) (patience : Nat) (dryRun : Bool) {userData : String}
    {entries : List (Region × Nat)} {s u : Run Fleet σ} (hu : Unlaunched s u)
    (hfound : ∀ entry ∈ entries, (u.own.image? entry.1).isSome = true) :
    ∃ new, Attempted (intentsOf c u.own userData entries) dryRun s
      ((launching c patience dryRun (.launching userData entries)).run w u).2 new := by
  obtain ⟨before, hbefore, hnone, hinstances⟩ := hu
  have hregions : ∀ region ∈ entries.map Prod.fst, (u.own.image? region).isSome = true := by
    intro region hr
    obtain ⟨entry, hm, rfl⟩ := List.mem_map.mp hr
    exact hfound entry hm
  generalize hrun : (launching c patience dryRun (.launching userData entries)).run w u = result
  obtain ⟨ending, t⟩ := result
  obtain ⟨⟨after, calls, hafter, hown, hcalls, hcalling⟩, -⟩ :=
    run_consented w c patience dryRun entries userData hregions hrun
  have hlaunched : launchCalls (before ++ after) = calls := by
    rw [launchCalls_append, hnone, launchCalls_of_commitments hcalls]
    rfl
  have hintents := intentsOf_replay c userData hfound after
  rw [← hown] at hintents
  refine ⟨before ++ after, ?_, ?_, ?_, ?_, ?_⟩
  · rw [hafter, hbefore, List.append_assoc]
  · rw [hlaunched]
    exact hcalling.dryRun_eq
  · rw [hlaunched, ← hintents]
    exact hcalling.intents_prefix
  · rw [hlaunched, ← hintents]
    exact hcalling.intents_all
  · rintro rfl herrors
    have hlast : t = ((launchGroups c userData true entries).run w u).2 := by
      rw [← run_launching_dry w c patience, hrun]
    rw [hlast] at hafter ⊢
    rw [hlaunched, ← launchCalls_of_commitments hcalls] at herrors
    rw [own_launchGroups_of_errors w c userData true entries hfound hafter herrors, hinstances]

theorem attempted_create (w : World σ) (c : FleetConfig) (patience : Nat) (plan : Plan) (dryRun : Bool)
    (s : Run Fleet σ) :
    ∃ new, Attempted (intended w c plan s) dryRun s ((create c patience plan dryRun).run w s).2 new := by
  have hunlaunched := unlaunched_preparing w c plan s
  have hready := preparing_ensures w c plan s
  rw [create_eq, Program.run_andThen, intended]
  cases hprepared : (preparing c plan).run w s with
  | mk ending u =>
    rw [hprepared] at hunlaunched
    cases ending with
    | returned prepared =>
      cases prepared with
      | done launch => exact hunlaunched.attempted dryRun
      | launching userData entries =>
        exact attempted_launching w c patience dryRun hunlaunched (hready.of_returned hprepared _ _ rfl)
    | _ => exact hunlaunched.attempted dryRun

/-- For every registry that lists no identifier twice, and whatever is answered. A dry run that moves a target which
exists and passes the check of its states calls the same regions for the same instances as the operation itself from the
same registry, in the same order; it asks and changes nothing else, and fails with the errors other than the signal that
a call would have succeeded. For the operation itself that signal is a failure. What creating instances launches is
settled before any region is asked, so a dry run asks for the same; if all regions answer it with errors, no instance
changes. -/
theorem dry_runs_call_alike_and_change_nothing (w : World σ) (c : FleetConfig) (s : FleetRun σ) :
    (∀ patience kind target targets, s.own.chosen target kind.default = .ok targets →
      (∀ expected, kind.required? = some expected → ∀ i ∈ targets, i.state = expected) →
      (∃ trials t ending, (transiting c patience kind target true).run w s.toRun = (ending, t)
        ∧ Rehearsed kind targets trials s.toRun t ending)
      ∧ ∀ (w' : World σ) (s' : Run Fleet σ), s'.own = s.own →
        ∃ moves t ending, (transiting c patience kind target false).run w' s' = (ending, t)
          ∧ Performed kind targets moves s' t ending)
    ∧ ∀ patience plan dryRun, ∃ new,
      Attempted (intended w c plan s.toRun) dryRun s.toRun ((create c patience plan dryRun).run w s.toRun).2 new := by
  refine ⟨fun patience kind target targets htargets hstate => ⟨?_, fun w' s' hown => ?_⟩,
    fun patience plan dryRun => attempted_create w c patience plan dryRun s.toRun⟩
  · exact rehearsed_transiting w c patience htargets hstate
  · rw [← hown] at htargets
    exact performed_transiting w' c patience htargets hstate

/-! ## A cloud that answers with the signal -/

/-- A cloud that has images, and answers every other call with the signal that it would have succeeded if it was a dry
run, but for one region. The operator consents to everything. -/
def signallingCloud : World Unit where
  answer
    | .cloud (.transition _ region _ _), _ =>
      (if region = ⟨"us-east-1"⟩ then .error (.unknownRegion region) else .error .dryRun, ())
    | .cloud (.launch ..), _ => (.error .dryRun, ())
    | .cloud (.describeImages ..), _ => (.ok [⟨"ami-1", "2024"⟩], ())
    | .confirm _, _ => (true, ())
    | r, _ => (r.unanswered, ())

/-- No script for new instances. -/
def scriptless : FleetConfig := { bootstrapScript := none }

theorem dry_runs_call_alike_and_change_nothing_signals :
    halfStopped.own.chosen (some (.ids ["i-2", "i-1"])) Transition.start.default = .ok stoppedPair
    ∧ (∃ trials t, (transiting scriptless 0 .start (some (.ids ["i-2", "i-1"])) true).run signallingCloud
          halfStopped.toRun = (.failed (.provider [(⟨"us-east-1"⟩, .unknownRegion ⟨"us-east-1"⟩)]), t)
      ∧ Rehearsed .start stoppedPair trials halfStopped.toRun t
        (.failed (.provider [(⟨"us-east-1"⟩, .unknownRegion ⟨"us-east-1"⟩)])))
    ∧ (∃ moves t, (transiting scriptless 0 .start (some (.ids ["i-2", "i-1"])) false).run signallingCloud
          halfStopped.toRun
        = (.failed (.provider [(⟨"us-east-1"⟩, .unknownRegion ⟨"us-east-1"⟩), (⟨"eu-west-3"⟩, .dryRun)]), t)
      ∧ Performed .start stoppedPair moves halfStopped.toRun t
        (.failed (.provider [(⟨"us-east-1"⟩, .unknownRegion ⟨"us-east-1"⟩), (⟨"eu-west-3"⟩, .dryRun)])))
    ∧ intended signallingCloud scriptless twoRegions halfStopped.toRun
      = [(⟨"us-east-1"⟩, requestOf scriptless "ami-1" 1 "")]
    ∧ ∃ new, Attempted (intended signallingCloud scriptless twoRegions halfStopped.toRun) true halfStopped.toRun
      ((create scriptless 0 twoRegions true).run signallingCloud halfStopped.toRun).2 new := by
  have hstate : ∀ expected, Transition.start.required? = some expected → ∀ i ∈ stoppedPair, i.state = expected := by
    intro expected he i hi
    cases he
    rcases List.mem_pair.mp hi with rfl | rfl <;> rfl
  obtain ⟨hmoving, hcreating⟩ := dry_runs_call_alike_and_change_nothing signallingCloud scriptless halfStopped
  obtain ⟨⟨trials, t, ending, hrun, hrehearsed⟩, hreal⟩ :=
    hmoving 0 .start (some (.ids ["i-2", "i-1"])) stoppedPair rfl hstate
  obtain ⟨moves, t', ending', hrun', hperformed⟩ := hreal signallingCloud halfStopped.toRun rfl
  refine ⟨rfl, ⟨trials, t, ?_⟩, ⟨moves, t', ?_⟩, rfl, hcreating 0 twoRegions true⟩
  · obtain rfl : ending = .failed (.provider [(⟨"us-east-1"⟩, .unknownRegion ⟨"us-east-1"⟩)]) :=
      (congrArg Prod.fst hrun).symm.trans rfl
    exact ⟨hrun, hrehearsed⟩
  · obtain rfl : ending' = .failed (.provider [(⟨"us-east-1"⟩, .unknownRegion ⟨"us-east-1"⟩),
        (⟨"eu-west-3"⟩, .dryRun)]) := (congrArg Prod.fst hrun').symm.trans rfl
    exact ⟨hrun', hperformed⟩

end Fleet

end CloudFleet
