import CloudFleet.Proofs.Fleet.Serving
import CloudFleet.Proofs.Region.Plan

/-!
# Only a confirmed shortfall is launched

`Fleet.create` takes one of the courses of `Course`: it browses, announces what is missing, asks for consent, and serves
the positive entries of the shortfall after a consent.

Main statement, for every plan whose shortfall can be counted, every registry and every world:
`create_launches_the_confirmed_shortfall`.
-/

set_option autoImplicit false

namespace CloudFleet

variable {σ : Type}

/-- The region and the number of instances, if the request launches some. -/
def Request.launched? : Request → Option (Region × Nat)
  | .cloud (.launch region request _) => some (region, request.count)
  | _ => none

namespace Fleet

/-! ## The course of creating instances -/

/-- What was served stays so. -/
theorem stable_serving (w : World σ) (c : FleetConfig) (userData : String) (dryRun : Bool)
    (groups : List (Region × Nat)) (s : Run Fleet σ) : Stable w (Serving c userData dryRun groups s) := by
  refine Stable.of_steps (fun t r hr ⟨new, calls, hh, ho, hcalls, hcalling⟩ => ?_)
    fun t change ⟨new, calls, hh, ho, hcalls, hcalling⟩ => ?_
  · refine ⟨new ++ [.asked r (t.reply w r)], calls, by simp [hh], by simp [ho], ?_, hcalling⟩
    rw [commitments_append, commitments_asked hr, hcalls]
    exact List.append_nil _
  · refine ⟨new ++ [.changed change], calls, by simp [hh], by simp [ho], ?_, ?_⟩
    · rw [commitments_append, commitments_changed, hcalls]
      exact List.append_nil _
    · refine hcalling.mono fun entry call ⟨image, answer, himage, hcall⟩ => ⟨image, answer, ?_, hcall⟩
      exact image?_replay_of_eq himage [.changed change]

/-- The question whether to launch instances. -/
abbrev launchQuestion (total : Nat) : Request := .confirm s!"launch {total} instance(s)?"

/-- How it goes once something is missing: the script cannot be read, the operator refuses, or the entries that are
positive are served. -/
inductive Purchase (c : FleetConfig) (dryRun : Bool) (missing : List (Region × Nat)) (total : Nat) (t : Run Fleet σ) :
    List (Happening Fleet) → List (Happening Fleet) → Ending FleetError Launch → Prop
  | unreadable {path : Path} (hscript : c.bootstrapScript = some path) (e : SystemError) :
      Purchase c dryRun missing total t [.asked (.file (.readText path)) (.error e)] [] (.failed (.system e))
  | refused {script : List (Happening Fleet)} {userData : String} (hscript : Script c script userData) :
      Purchase c dryRun missing total t script
        [.asked (launchQuestion total) false, .asked (.announce .launchAborted) ()] (.returned .aborted)
  | consented {script rest : List (Happening Fleet)} {userData : String} {calls : List LaunchCall}
      {ending : Ending FleetError Launch} (hscript : Script c script userData)
      (hcalls : commitments rest = calls.map LaunchCall.exchange)
      (hcalling : Calling (Serves c t.own userData dryRun) (missing.filter fun entry => 0 < entry.2) calls)
      (hending : ∀ region, ending ≠ .failed (.imageNotFound region)) :
      Purchase c dryRun missing total t script (.asked (launchQuestion total) true :: rest) ending

/-- After a consent the positive entries are served, and no image is missing. -/
theorem run_consented (w : World σ) (c : FleetConfig) (patience : Nat) (dryRun : Bool) (groups : List (Region × Nat))
    (userData : String) {s t : Run Fleet σ} {ending : Ending FleetError Launch}
    (hfound : ∀ region ∈ groups.map Prod.fst, (s.own.image? region).isSome = true)
    (hrun : (launchGroups c userData dryRun groups >>= fun found =>
      awaitLaunched c patience dryRun found.1 found.2).run w s = (ending, t)) :
    Serving c userData dryRun groups s t ∧ ∀ region, ending ≠ .failed (.imageNotFound region) := by
  constructor
  · have hlaunch := serving_launchGroups w c userData dryRun groups s fun group hg =>
      hfound _ (List.mem_map_of_mem hg)
    have hserving := Program.after_andThen hlaunch (f := fun found =>
      awaitLaunched c patience dryRun found.1 found.2) fun found v hv => by
        rw [hv] at hlaunch
        exact (stable_serving w c userData dryRun groups s).awaitLaunched c patience dryRun _ _ v hlaunch
    rwa [hrun] at hserving
  · intro region hending
    have himages := (launchGroups_images w c userData dryRun groups hfound).bind fun found v _ =>
      NeedsNoImage.awaitLaunched c patience dryRun found.1 found.2 v
    have hfalse := himages.of_failed (hending ▸ hrun)
    cases hfalse

theorem launchShortfall_eq (c : FleetConfig) (patience : Nat) (dryRun : Bool) (missing : List (Region × Nat))
    (total : Nat) : launchShortfall c patience dryRun missing total = (do
      let userData ← bootstrap c
      let consent ← Program.request (launchQuestion total)
      if consent = true then
        launchGroups c userData dryRun (missing.filter fun entry => 0 < entry.2) >>= fun found =>
          awaitLaunched c patience dryRun found.1 found.2
      else
        let _ ← Program.request (.announce .launchAborted)
        pure .aborted) := rfl

theorem run_launchShortfall (w : World σ) (c : FleetConfig) (patience : Nat) (dryRun : Bool)
    (missing : List (Region × Nat)) (total : Nat) {s t : Run Fleet σ} {ending : Ending FleetError Launch}
    (hfound : ∀ region ∈ missing.map Prod.fst, (s.own.image? region).isSome = true)
    (hrun : (launchShortfall c patience dryRun missing total).run w s = (ending, t)) :
    ∃ script after, t.history = s.history ++ (script ++ after) ∧ Purchase c dryRun missing total t script after ending := by
  rw [launchShortfall_eq] at hrun
  rcases run_bootstrap w c s with ⟨script, userData, u, hscript, hboot, hread⟩ | ⟨path, e, u, hpath, hboot, hread⟩
  · rw [Program.run_andThen_of_returned hboot,
      Program.run_andThen_of_returned (Program.run_request w (launchQuestion total) u)] at hrun
    have hasked : (u.ask w (launchQuestion total)).history
        = s.history ++ (script ++ [.asked (launchQuestion total) (u.reply w (launchQuestion total))]) := by
      rw [Run.history_ask, hread.history, List.append_assoc]
    cases hanswer : u.reply w (launchQuestion total) with
    | true =>
      rw [hanswer] at hrun hasked
      rw [if_pos rfl] at hrun
      have hfound' : ∀ region ∈ (missing.filter fun entry => 0 < entry.2).map Prod.fst,
          ((u.ask w (launchQuestion total)).own.image? region).isSome = true := by
        intro region hr
        rw [Run.own_ask, hread.own]
        obtain ⟨entry, hm, rfl⟩ := List.mem_map.mp hr
        exact hfound _ (List.mem_map_of_mem (List.mem_filter.mp hm).1)
      obtain ⟨⟨rest, calls, hh, -, hcalls, hcalling⟩, hending⟩ := run_consented w c patience dryRun _ userData hfound' hrun
      refine ⟨script, .asked (launchQuestion total) true :: rest, ?_, .consented hscript hcalls hcalling hending⟩
      rw [hh, hasked]
      simp
    | false =>
      rw [hanswer] at hrun hasked
      rw [if_neg Bool.false_ne_true, Program.run_andThen_of_returned (Program.run_request w _ _)] at hrun
      cases hrun
      refine ⟨script, _, ?_, .refused hscript⟩
      rw [Run.history_ask, hasked, List.append_assoc, List.append_assoc]
      rfl
  · rw [Program.run_andThen_of_failed hboot] at hrun
    cases hrun
    exact ⟨_, [], by simpa using hread.history, .unreadable hpath e⟩

/-- The announcement of what is missing from a plan. -/
abbrev planned (f : Fleet) (plan : Plan) : Request :=
  .announce (.launchPlanned (f.shortfall plan) f.running.length (countAll (f.shortfall plan)))

/-- How creating instances goes: an image is not found, nothing is missing, or it comes to a purchase. -/
inductive Course (c : FleetConfig) (plan : Plan) (dryRun : Bool) (s t : Run Fleet σ) :
    List (Happening Fleet) → List (Happening Fleet) → Ending FleetError Launch → Prop
  | unfound {looked : List (Happening Fleet)} (hlookups : Lookups c plan.regions looked) (hfound : ¬AllFound looked)
      (e : FleetError) : Course c plan dryRun s t looked [] (.failed e)
  | complete {looked : List (Happening Fleet)} (hlookups : Lookups c plan.regions looked) (hfound : AllFound looked)
      (hzero : countAll (s.own.shortfall plan) = 0) :
      Course c plan dryRun s t (looked ++ [.asked (planned s.own plan) ()]) [] (.returned (.launched []))
  | purchase {looked script after : List (Happening Fleet)} {ending : Ending FleetError Launch}
      (hlookups : Lookups c plan.regions looked) (hfound : AllFound looked)
      (hpos : 0 < countAll (s.own.shortfall plan))
      (h : Purchase c dryRun (s.own.shortfall plan) (countAll (s.own.shortfall plan)) t script after ending) :
      Course c plan dryRun s t (looked ++ .asked (planned s.own plan) () :: script) after ending

theorem running_congr {f g : Fleet} (h : g.instances = f.instances) : g.running = f.running := by
  unfold running inState filter
  rw [h]

/-- Creating instances from a plan whose shortfall can be counted takes one of its courses. -/
theorem course_create (w : World σ) (c : FleetConfig) (patience : Nat) (plan : Plan) (dryRun : Bool) {s t : Run Fleet σ}
    {ending : Ending FleetError Launch} (hsum : countAll (s.own.shortfall plan) < wordLimit)
    (hrun : (create c patience plan dryRun).run w s = (ending, t)) :
    ∃ before after, t.history = s.history ++ (before ++ after) ∧ Course c plan dryRun s t before after ending := by
  obtain ⟨looked, u, hlooking, hends⟩ := run_selectImages (c := c) w plan.regions (fun _ h => h) s
  have hlookups := hlooking.lookups
  have hu := hlooking.history
  rcases hends with ⟨failures, hselect, hfound⟩ | ⟨region, hselect, hfound⟩
  · rw [create, Program.run_andThen_of_returned hselect, Program.run_andThen, run_settle] at hrun
    cases failures with
    | cons failure failures =>
      cases hrun
      exact ⟨looked, [], by simpa using hu, .unfound hlookups (fun h => by cases hfound.mpr h) _⟩
    | nil =>
      have hfound := hfound.mp rfl
      have hinstances : u.own.instances = s.own.instances := by rw [hlooking.own, hlookups.browses.instances]
      rw [if_pos rfl] at hrun
      dsimp only at hrun
      rw [Program.run_andThen_of_returned (Program.run_memory w u)] at hrun
      rw [shortfall_congr hinstances, running_congr hinstances, wordSum?_counts, if_pos hsum] at hrun
      dsimp only at hrun
      rw [Program.run_andThen_of_returned (Program.run_request w _ u)] at hrun
      have hplanned : (u.ask w (planned s.own plan)).history
          = s.history ++ (looked ++ [.asked (planned s.own plan) ()]) := by
        rw [Run.history_ask, hu, List.append_assoc]
      by_cases hzero : countAll (s.own.shortfall plan) = 0
      · rw [if_pos hzero] at hrun
        cases hrun
        exact ⟨_, [], by rw [List.append_nil]; exact hplanned, .complete hlookups hfound hzero⟩
      · rw [if_neg hzero] at hrun
        have himages : ∀ region ∈ (s.own.shortfall plan).map Prod.fst,
            ((u.ask w (planned s.own plan)).own.image? region).isSome = true := by
          intro region hr
          obtain ⟨entry, hm, rfl⟩ := List.mem_map.mp hr
          exact ((selectImages_ensures w c plan.regions s).of_returned hselect).2 rfl _ (mem_regions_of_mem_shortfall hm)
        obtain ⟨script, after, hh, hpurchase⟩ := run_launchShortfall w c patience dryRun _ _ himages hrun
        refine ⟨_, after, ?_, .purchase hlookups hfound (Nat.pos_of_ne_zero hzero) hpurchase⟩
        rw [hh, hplanned, List.append_assoc, List.append_assoc, List.append_assoc]
        rfl
  · rw [create, Program.run_andThen_of_failed hselect] at hrun
    cases hrun
    exact ⟨looked, [], by simpa using hu, .unfound hlookups hfound _⟩

theorem run_create (w : World σ) (c : FleetConfig) (patience : Nat) (plan : Plan) (dryRun : Bool) {s t : Run Fleet σ}
    {ending : Ending FleetError Launch} (hsum : countAll (s.own.shortfall plan) < wordLimit)
    (hrun : (create c patience plan dryRun).run w s = (ending, t)) :
    ∃ before after, t.history = s.history ++ (before ++ after) ∧ t.own = replay s.own (before ++ after)
      ∧ Course c plan dryRun s t before after ending := by
  obtain ⟨before, after, hh, hcourse⟩ := course_create w c patience plan dryRun hsum hrun
  obtain ⟨new, hnew, hown⟩ := Program.run_history w (create c patience plan dryRun) s
  rw [hrun] at hnew hown
  have heq : new = before ++ after := List.append_cancel_left (hnew.symm.trans hh)
  exact ⟨before, after, hh, heq ▸ hown, hcourse⟩

/-! ## What creating instances commits to -/

/-- What creating instances did before it asked for consent, and what it did from the question on. -/
structure Creation (c : FleetConfig) (plan : Plan) (dryRun : Bool) (s t : Run Fleet σ)
    (ending : Ending FleetError Launch) (before after : List (Happening Fleet)) : Prop where
  history : t.history = s.history ++ (before ++ after)
  /-- In a region of the plan as many are missing as the plan counts there less those that run there. -/
  missing : s.own.shortfall plan
    = plan.regions.map fun r => (r, plan.count r - (s.own.running.filter fun i => i.region == r).length)
  /-- Before the question nothing is committed, and only images are asked of the provider, -/
  uncommitted : commitments before = []
  browses : Browses c plan.regions before
  /-- and what is missing is announced exactly if all images were found. -/
  announced : AllFound before →
    plans before = [(s.own.shortfall plan, s.own.running.length, countAll (s.own.shortfall plan))]
  unannounced : ¬AllFound before → plans before = []
  /-- The question is asked exactly if moreover the script was read and something is missing, -/
  asks_iff : after ≠ [] ↔
    AllFound before ∧ (∃ userData, Reads c before userData) ∧ 0 < countAll (s.own.shortfall plan)
  /-- and it is the only one. After a refusal nothing is launched; after a consent every entry that is positive is
  launched by one call, in order, up to an answer with a state that is none. -/
  commits : after = []
    ∨ (∃ rest, after = .asked (launchQuestion (countAll (s.own.shortfall plan))) false :: rest
      ∧ commitments rest = [] ∧ ending = .returned .aborted)
    ∨ ∃ rest userData calls, after = .asked (launchQuestion (countAll (s.own.shortfall plan))) true :: rest
      ∧ Reads c before userData ∧ commitments rest = calls.map LaunchCall.exchange
      ∧ Calling (Serves c t.own userData dryRun) ((s.own.shortfall plan).filter fun entry => 0 < entry.2) calls
  /-- Without a consent all instances are as before, and only images were asked of the provider. -/
  unspent : ¬Consented after → t.own.instances = s.own.instances ∧ Browses c plan.regions after
  /-- An image is missing only where a lookup did not find it. -/
  imageless : ∀ region, ending = .failed (.imageNotFound region) → ¬AllFound before

section Creation

variable {c : FleetConfig} {plan : Plan} {dryRun : Bool} {s t : Run Fleet σ} {ending : Ending FleetError Launch}
  {looked script before after : List (Happening Fleet)}

/-- Looking up, announcing and reading the script, as one. -/
theorem quiet_before (hlookups : Lookups c plan.regions looked) (hfound : AllFound looked)
    (hscript : Browses c plan.regions script ∧ commitments script = [] ∧ plans script = [] ∧ AllFound script) :
    Browses c plan.regions (looked ++ .asked (planned s.own plan) () :: script)
      ∧ commitments (looked ++ .asked (planned s.own plan) () :: script) = []
      ∧ plans (looked ++ .asked (planned s.own plan) () :: script)
        = [(s.own.shortfall plan, s.own.running.length, countAll (s.own.shortfall plan))]
      ∧ AllFound (looked ++ .asked (planned s.own plan) () :: script) := by
  obtain ⟨hbrowses, hcommitments, hplans, hall⟩ := hscript
  refine ⟨hlookups.browses.append (.cons (.asked c _ (by simp [planned]) _) hbrowses), ?_, ?_, ?_⟩
  · rw [commitments_append, hlookups.uncommitted, commitments_asked rfl, hcommitments]
    rfl
  · have hone : plans (.asked (planned s.own plan) () :: script)
        = (s.own.shortfall plan, s.own.running.length, countAll (s.own.shortfall plan)) :: plans script := rfl
    rw [plans_append, hlookups.unplanned, hone, hplans]
    rfl
  · refine allFound_append.mpr ⟨hfound, fun x hx => ?_⟩
    rcases List.mem_cons.mp hx with rfl | hx
    · rfl
    · exact hall x hx

/-- Every course of creating instances commits to no more than the shortfall it asked about. -/
theorem Course.creation (h : Course c plan dryRun s t before after ending)
    (hh : t.history = s.history ++ (before ++ after)) (hown : t.own = replay s.own (before ++ after)) :
    Creation c plan dryRun s t ending before after := by
  have hunspent : Browses c plan.regions (before ++ after) → t.own.instances = s.own.instances := by
    intro hb
    rw [hown, hb.instances]
  cases h with
  | unfound hlookups hfound e =>
    refine ⟨hh, rfl, hlookups.uncommitted, hlookups.browses, fun h => absurd h hfound, fun _ => hlookups.unplanned, ?_,
      .inl rfl, fun _ => ⟨hunspent (hlookups.browses.append (.nil c _)), .nil c _⟩, fun _ _ => hfound⟩
    exact ⟨fun h => absurd rfl h, fun h => absurd h.1 hfound⟩
  | complete hlookups hfound hzero =>
    obtain ⟨hbrowses, hcommitments, hplans, hall⟩ := quiet_before (s := s) hlookups hfound
      ⟨.nil c _, rfl, rfl, by simp [AllFound]⟩
    refine ⟨hh, rfl, hcommitments, hbrowses, fun _ => hplans, fun h => absurd hall h, ?_, .inl rfl,
      fun _ => ⟨hunspent (hbrowses.append (.nil c _)), .nil c _⟩, fun _ h => by cases h⟩
    exact ⟨fun h => absurd rfl h, fun h => absurd h.2.2 (by omega)⟩
  | @purchase looked script after ending hlookups hfound hpos h =>
    have hsub : script ⊆ looked ++ .asked (planned s.own plan) () :: script :=
      List.subset_append_of_subset_right looked (List.subset_cons_self _ script)
    cases h with
    | @unreadable path hpath e =>
      have hunread : Browses c plan.regions [.asked (.file (.readText path)) (.error e)] := .asked c _ (by simp) _
      obtain ⟨hbrowses, hcommitments, hplans, hall⟩ := quiet_before (s := s) hlookups hfound
        ⟨hunread, rfl, rfl, by simp [AllFound, finds]⟩
      refine ⟨hh, rfl, hcommitments, hbrowses, fun _ => hplans, fun h => absurd hall h, ?_, .inl rfl,
        fun _ => ⟨hunspent (hbrowses.append (.nil c _)), .nil c _⟩, fun _ h => by cases h⟩
      refine ⟨fun h => absurd rfl h, ?_⟩
      rintro ⟨_, ⟨userData, hreads⟩, _⟩
      rw [Reads, hpath] at hreads
      rcases List.mem_append.mp hreads with hm | hm
      · exact absurd hm (hlookups.unread _ _)
      · simp [planned] at hm
    | refused hscript =>
      obtain ⟨hbrowses, hcommitments, hplans, hall⟩ := quiet_before (s := s) hlookups hfound (hscript.quiet _)
      have hafter : Browses c plan.regions [.asked (launchQuestion (countAll (s.own.shortfall plan))) false,
          .asked (.announce .launchAborted) ()] := .cons (.asked c _ (by simp) _) (.asked c _ (by simp) _)
      have hreads := hscript.reads hsub
      refine ⟨hh, rfl, hcommitments, hbrowses, fun _ => hplans, fun h => absurd hall h, ?_, .inr (.inl ⟨_, rfl, rfl, rfl⟩),
        fun _ => ⟨hunspent (hbrowses.append hafter), hafter⟩, fun _ h => by cases h⟩
      exact ⟨fun _ => ⟨hall, ⟨_, hreads⟩, hpos⟩, fun _ => by simp⟩
    | consented hscript hcalls hcalling hending =>
      obtain ⟨hbrowses, hcommitments, hplans, hall⟩ := quiet_before (s := s) hlookups hfound (hscript.quiet _)
      have hreads := hscript.reads hsub
      refine ⟨hh, rfl, hcommitments, hbrowses, fun _ => hplans, fun h => absurd hall h, ?_,
        .inr (.inr ⟨_, _, _, rfl, hreads, hcalls, hcalling⟩), fun h => ?_, fun region h => absurd h (hending region)⟩
      · exact ⟨fun _ => ⟨hall, ⟨_, hreads⟩, hpos⟩, fun _ => by simp⟩
      · exact absurd ⟨_, List.mem_cons_self⟩ h

end Creation

/-- Whatever the registry, the world and the plan, if its shortfall can be counted: consent is asked for at most once,
exactly if all images were found, the script was read and something is missing; without it nothing is launched and
nothing changes; with it the instances missing are launched, region by region, and no image is missing then. -/
theorem create_launches_the_confirmed_shortfall (w : World σ) (c : FleetConfig) (patience : Nat) (plan : Plan)
    (dryRun : Bool) {s t : Run Fleet σ} {ending : Ending FleetError Launch}
    (hsum : countAll (s.own.shortfall plan) < wordLimit)
    (hrun : (create c patience plan dryRun).run w s = (ending, t)) :
    ∃ before after, Creation c plan dryRun s t ending before after := by
  obtain ⟨before, after, hh, hown, hcourse⟩ := run_create w c patience plan dryRun hsum hrun
  exact ⟨before, after, hcourse.creation hh hown⟩

/-- The instances requested, by region. -/
def requested (h : List (Happening Fleet)) : List (Region × Nat) := (requests h).filterMap Request.launched?

/-- A fleet with one instance that runs. -/
def oneThere : Run Fleet Unit :=
  ⟨{ instances := [⟨"i-1", ⟨"eu-west-3"⟩, some "one", .running, true, none⟩] }, (), []⟩

/-- Three instances in its region, and one in another. -/
def threeAndOne : Plan := ⟨[(⟨"eu-west-3"⟩, 3), (⟨"us-east-1"⟩, 1)]⟩

/-- Two are missing in the region where one runs, and one in the other: three are asked about, and launched. -/
theorem create_launches_the_confirmed_shortfall_two_regions :
    countAll (oneThere.own.shortfall threeAndOne) < wordLimit
      ∧ ∃ ending t before after, (create { bootstrapScript := none } 0 threeAndOne false).run
          (launchingCloud fun _ => "pending") oneThere = (ending, t)
        ∧ Creation { bootstrapScript := none } threeAndOne false oneThere t ending before after
        ∧ oneThere.own.shortfall threeAndOne = [(⟨"eu-west-3"⟩, 2), (⟨"us-east-1"⟩, 1)]
        ∧ Consented (before ++ after)
        ∧ requested (before ++ after) = [(⟨"eu-west-3"⟩, 2), (⟨"us-east-1"⟩, 1)] := by
  have hsum : countAll (oneThere.own.shortfall threeAndOne) < wordLimit := by decide +kernel
  obtain ⟨before, after, hcreation⟩ := create_launches_the_confirmed_shortfall (launchingCloud fun _ => "pending")
    { bootstrapScript := none } 0 threeAndOne false hsum (s := oneThere) rfl
  have hall : ((create { bootstrapScript := none } 0 threeAndOne false).run (launchingCloud fun _ => "pending")
      oneThere).2.history = before ++ after := hcreation.history
  refine ⟨hsum, _, _, before, after, rfl, hcreation, by decide +kernel, ?_, ?_⟩
  · rw [← hall]
    exact ⟨"launch 3 instance(s)?", List.mem_of_getElem? (i := 9) rfl⟩
  · rw [← hall]
    decide +kernel

end Fleet

end CloudFleet
