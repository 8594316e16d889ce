import CloudFleet.Proofs.Fleet.Creating

/-!
# How many instances are requested

What a history requests are the counts of its launches, by region (`requested`). Where the provider and the operator
oblige, `Fleet.create` requests the whole shortfall of a plan (`requested_eq_shortfall`). The shortfall takes the first
entry of a region once for each of its positive entries, so it is what the plan wants exactly if no region has two of
them (`shortfall_eq_wanted_iff`); of a plan that deals `n` instances out, if the first `n` regions are different.

Main statement, for every registry and world: `distribute_never_over_provisions`.
-/

set_option autoImplicit false

namespace CloudFleet

variable {σ : Type}

theorem Request.launched?_of_not_commits {r : Request} (h : r.commits = false) : r.launched? = none := by
  unfold launched?
  split
  · cases h
  · rfl

namespace Fleet

/-! ## Requests of launches -/

/-- Launches are among what is committed. -/
theorem requested_eq (h : List (Happening Fleet)) :
    requested h = (commitments h).filterMap fun x => x.1.launched? := by
  unfold requested requests commitments
  rw [List.filterMap_map, List.filterMap_filter]
  refine congrFun (congrArg List.filterMap (funext fun x => ?_)) _
  cases hc : x.1.commits with
  | true => rw [if_pos rfl]; rfl
  | false =>
    rw [if_neg Bool.false_ne_true]
    exact Request.launched?_of_not_commits hc

theorem requested_append (h k : List (Happening Fleet)) : requested (h ++ k) = requested h ++ requested k := by
  simp [requested]

/-- Where nothing is committed, nothing is requested. -/
theorem requested_of_uncommitted {h : List (Happening Fleet)} (hc : commitments h = []) : requested h = [] := by
  rw [requested_eq, hc]
  rfl

/-- The region of a call and the number of instances it requests. -/
def LaunchCall.entry (call : LaunchCall) : Region × Nat := (call.region, call.request.count)

theorem requested_of_calls {h : List (Happening Fleet)} {calls : List LaunchCall}
    (hc : commitments h = calls.map LaunchCall.exchange) : requested h = calls.map LaunchCall.entry := by
  rw [requested_eq, hc, List.filterMap_map]
  exact List.filterMap_eq_map_iff_forall_eq_some.mpr fun call _ => rfl

section Calling

variable {c : FleetConfig} {f : Fleet} {userData : String} {dryRun : Bool} {entries : List (Region × Nat)}
  {calls : List LaunchCall}

theorem Serves.entry {entry : Region × Nat} {call : LaunchCall} (h : Serves c f userData dryRun entry call) :
    call.entry = entry := by
  obtain ⟨image, answer, -, rfl⟩ := h
  rfl

/-- The calls request the first of the entries, -/
theorem Calling.requests_prefix (h : Calling (Serves c f userData dryRun) entries calls) :
    calls.map LaunchCall.entry <+: entries := by
  simpa using h.prefix_filterMap (k := some) fun entry call hserves => by rw [hserves.entry]

/-- and all of them unless one answered with a state that is none. -/
theorem Calling.requests_all (h : Calling (Serves c f userData dryRun) entries calls)
    (hreadable : ∀ call ∈ calls, call.readable = true) : calls.map LaunchCall.entry = entries := by
  simpa using h.eq_filterMap (k := some) (fun entry call hserves => by rw [hserves.entry]) hreadable

end Calling

theorem countAll_of_prefix {counts more : List (Region × Nat)} (h : counts <+: more) : countAll counts ≤ countAll more := by
  obtain ⟨rest, rfl⟩ := h
  induction counts with
  | nil => exact Nat.zero_le _
  | cons entry counts ih =>
    rw [List.cons_append, countAll_cons, countAll_cons]
    omega

/-! ## What is requested on a course -/

section Course

variable {c : FleetConfig} {plan : Plan} {dryRun : Bool} {s t : Run Fleet σ} {ending : Ending FleetError Launch}
  {before after : List (Happening Fleet)}

/-- Without a consent nothing is requested, and with it the calls that serve the shortfall. -/
theorem Creation.requests (h : Creation c plan dryRun s t ending before after) :
    (¬Consented after ∧ requested (before ++ after) = [])
    ∨ ∃ rest userData calls, after = .asked (launchQuestion (countAll (s.own.shortfall plan))) true :: rest
      ∧ commitments rest = calls.map LaunchCall.exchange ∧ requested (before ++ after) = calls.map LaunchCall.entry
      ∧ Calling (Serves c t.own userData dryRun) ((s.own.shortfall plan).filter fun entry => 0 < entry.2) calls := by
  rw [requested_append, requested_of_uncommitted h.uncommitted, List.nil_append]
  have hskip : ∀ n consent rest, requested (.asked (launchQuestion n) consent :: rest) = requested rest :=
    fun _ _ _ => rfl
  rcases h.commits with rfl | ⟨rest, rfl, hrest, -⟩ | ⟨rest, userData, calls, rfl, -, hcalls, hcalling⟩
  · refine .inl ⟨?_, rfl⟩
    rintro ⟨_, hq⟩
    cases hq
  · rw [hskip]
    refine .inl ⟨?_, requested_of_uncommitted hrest⟩
    rintro ⟨question, hq⟩
    have hm : (⟨.confirm question, true⟩ : (r : Request) × r.Reply) ∈ commitments rest := by
      rcases List.mem_cons.mp hq with heq | hq
      · cases heq
      · exact List.mem_filter.mpr ⟨List.mem_filterMap.mpr ⟨_, hq, rfl⟩, rfl⟩
    rw [hrest] at hm
    cases hm
  · rw [hskip]
    exact .inr ⟨rest, userData, calls, rfl, hcalls, requested_of_calls hcalls, hcalling⟩

/-- Never more than the shortfall is requested. -/
theorem Creation.requested_le (h : Creation c plan dryRun s t ending before after) :
    countAll (requested (before ++ after)) ≤ countAll (s.own.shortfall plan) := by
  rcases h.requests with ⟨-, hnone⟩ | ⟨rest, userData, calls, -, -, hcalls, hcalling⟩
  · rw [hnone]
    exact Nat.zero_le _
  · rw [hcalls, ← countAll_filter_pos (s.own.shortfall plan)]
    exact countAll_of_prefix hcalling.requests_prefix

end Course

/-! ## A provider and an operator that oblige -/

/-- Whatever is asked for is there: images, instances in states that exist, the script, and the operator's consent. -/
structure Obliging (c : FleetConfig) (w : World σ) : Prop where
  images : ∀ region owner namePattern world, ∃ image images,
    (w.answer (.cloud (.describeImages region owner namePattern)) world).1 = .ok (image :: images)
  launches : ∀ region request dryRun world,
    readableAnswer (w.answer (.cloud (.launch region request dryRun)) world).1 = true
  script : ∀ path world, c.bootstrapScript = some path →
    ∃ text, (w.answer (.file (.readText path)) world).1 = .ok text
  consents : ∀ question world, (w.answer (.confirm question) world).1 = true

section Obliging

variable {c : FleetConfig} {w : World σ} {plan : Plan} {dryRun : Bool} {s t : Run Fleet σ}
  {ending : Ending FleetError Launch} {before after : List (Happening Fleet)}

/-- Where all are obliging the operator is asked and consents, unless nothing is missing. -/
theorem Course.consented (h : Course c plan dryRun s t before after ending) (hw : Obliging c w)
    (hanswers : ∀ r reply, .asked r reply ∈ before ++ after → ∃ world, reply = (w.answer r world).1) :
    countAll (s.own.shortfall plan) = 0 ∨ Consented after := by
  cases h with
  | unfound _ hfound _ =>
    refine absurd (fun x hx => ?_) hfound
    unfold finds
    split
    · rename_i region owner namePattern images
      obtain ⟨world, hreply⟩ := hanswers _ _ (List.mem_append_left _ hx)
      obtain ⟨image, images', hok⟩ := hw.images region owner namePattern world
      rw [hok] at hreply
      cases hreply
      rfl
    · rename_i region owner namePattern e
      obtain ⟨world, hreply⟩ := hanswers _ _ (List.mem_append_left _ hx)
      obtain ⟨image, images', hok⟩ := hw.images region owner namePattern world
      rw [hok] at hreply
      cases hreply
    · rfl
  | complete _ _ hzero => exact .inl hzero
  | purchase _ _ _ h =>
    refine .inr ?_
    cases h with
    | unreadable hpath e =>
      obtain ⟨world, hreply⟩ := hanswers _ _ (List.mem_append_left _
        (List.mem_append_right _ (List.mem_cons_of_mem _ (List.mem_singleton.mpr rfl))))
      obtain ⟨text, hok⟩ := hw.script _ world hpath
      rw [hok] at hreply
      cases hreply
    | refused _ =>
      obtain ⟨world, hreply⟩ := hanswers _ _ (List.mem_append_right _ List.mem_cons_self)
      rw [hw.consents] at hreply
      cases hreply
    | consented _ _ _ _ => exact ⟨_, List.mem_cons_self⟩

/-- What is committed happened. -/
theorem mem_of_mem_commitments {h : List (Happening Fleet)} {r : Request} {reply : r.Reply}
    (hm : ⟨r, reply⟩ ∈ commitments h) : .asked r reply ∈ h := by
  obtain ⟨happening, hh, he⟩ := List.mem_filterMap.mp (List.mem_filter.mp hm).1
  cases happening with
  | asked r' reply' =>
    cases he
    exact hh
  | changed c => cases he

/-- Where all are obliging the whole shortfall is requested. -/
theorem requested_eq_shortfall (hw : Obliging c w) (hcourse : Course c plan dryRun s t before after ending)
    (hcreation : Creation c plan dryRun s t ending before after)
    (hanswers : ∀ r reply, .asked r reply ∈ before ++ after → ∃ world, reply = (w.answer r world).1) (r : Region) :
    countIn r (requested (before ++ after)) = countIn r (s.own.shortfall plan) := by
  rcases hcreation.requests with ⟨hno, hnone⟩ | ⟨rest, userData, calls, rfl, hcommitted, hcalls, hcalling⟩
  · have hzero := (hcourse.consented hw hanswers).resolve_right hno
    have hle := countIn_le_countAll r (s.own.shortfall plan)
    rw [hnone, countIn_nil]
    omega
  · have hreadable : ∀ call ∈ calls, call.readable = true := by
      intro call hm
      have hasked : call.exchange ∈ commitments rest := by
        rw [hcommitted]
        exact List.mem_map_of_mem hm
      obtain ⟨world, hreply⟩ := hanswers _ _ (List.mem_append_right _
        (List.mem_cons_of_mem _ (mem_of_mem_commitments hasked)))
      rw [LaunchCall.readable, hreply]
      exact hw.launches _ _ _ world
    rw [hcalls, hcalling.requests_all hreadable, countIn_filter_pos]

end Obliging

/-! ## What a shortfall takes of a plan -/

/-- The number of instances that run in a region. -/
def runningIn (f : Fleet) (r : Region) : Nat := (f.running.filter fun i => i.region == r).length

/-- What is missing in a region is missing once for each positive entry of the region. -/
theorem countIn_shortfall (f : Fleet) (plan : Plan) (r : Region) :
    countIn r (f.shortfall plan) = plan.regions.count r * (plan.count r - f.runningIn r) :=
  countIn_map_of_region r (fun q => plan.count q - f.runningIn q) plan.regions

section Distribute

variable {n : Nat} {regions : List Region}

/-- Where the regions that get anything are different, the shortfall takes what runs off the entries. -/
theorem shortfall_distribute (f : Fleet) (h : (regions.take n).Nodup) :
    f.shortfall (Plan.distribute n regions)
      = ((Plan.distribute n regions).counts.filter fun entry => 0 < entry.2).map
          fun entry => (entry.1, entry.2 - f.runningIn entry.1) := by
  unfold shortfall Plan.regions
  rw [List.map_map]
  refine List.map_congr_left fun entry hm => ?_
  obtain ⟨hm, hpos⟩ := List.mem_filter.mp hm
  have hcount := Plan.count_of_mem_distribute h hm (by simpa using hpos)
  rw [Function.comp_apply, hcount]
  rfl

theorem countAll_shortfall_le (f : Fleet) (h : (regions.take n).Nodup) :
    countAll (f.shortfall (Plan.distribute n regions)) ≤ n := by
  rw [shortfall_distribute f h]
  refine Nat.le_trans (countAll_map_sub_le _ f.runningIn) ?_
  rw [countAll_filter_pos]
  exact Plan.countAll_distribute_le n regions

theorem countIn_shortfall_distribute (f : Fleet) (h : (regions.take n).Nodup) (r : Region) :
    countIn r (f.shortfall (Plan.distribute n regions)) = (Plan.distribute n regions).wanted r - f.runningIn r := by
  rw [shortfall_distribute f h, countIn_map_sub r f.runningIn (Plan.nodup_positive_distribute h), countIn_filter_pos]
  rfl

/-- A fleet of instances that run in one region. -/
def crowd (r : Region) (size : Nat) : Fleet :=
  ⟨List.replicate size ⟨"i", r, none, .running, false, none⟩, []⟩

theorem runningIn_crowd (r : Region) (size : Nat) : (crowd r size).runningIn r = size := by
  simp [runningIn, running, inState, filter, crowd]

/-- Whatever runs, the shortfall is what the plan wants less what runs, exactly if the regions that get anything are
different. -/
theorem shortfall_eq_wanted_iff : (∀ (f : Fleet) (r : Region), countIn r (f.shortfall (Plan.distribute n regions))
      = (Plan.distribute n regions).wanted r - f.runningIn r) ↔ (regions.take n).Nodup := by
  constructor
  · intro hall
    by_contra hnot
    rw [← Plan.regions_distribute] at hnot
    obtain ⟨r, hr⟩ := Plan.exists_count_lt_wanted _ hnot
    -- as many as the first entry of the region says run already, so nothing seems to be missing
    have h := hall (crowd r ((Plan.distribute n regions).count r)) r
    rw [countIn_shortfall, runningIn_crowd, Nat.sub_self, Nat.mul_zero] at h
    omega
  · exact fun h f r => countIn_shortfall_distribute f h r

end Distribute

/-! ## Instances dealt out over regions -/

/-- Whatever the number of instances and the regions: in every fleet exactly what does not run of a plan is missing if
and only if the regions that get anything are different. Then, whatever the registry and the world, no more instances
are requested than are dealt out, and where the provider and the operator oblige, in every region those that the plan
wants there and that do not run. -/
theorem distribute_never_over_provisions (w : World σ) (c : FleetConfig) (patience : Nat) (dryRun : Bool) {n : Nat}
    (hn : n < wordLimit) (regions : List Region) :
    ((∀ (f : Fleet) (r : Region), countIn r (f.shortfall (Plan.distribute n regions))
        = (Plan.distribute n regions).wanted r - f.runningIn r) ↔ (regions.take n).Nodup)
      ∧ ((regions.take n).Nodup → ∀ s : Run Fleet σ, ∃ new,
        ((create c patience (Plan.distribute n regions) dryRun).run w s).2.history = s.history ++ new
          ∧ countAll (requested new) ≤ n
          ∧ (Obliging c w → ∀ r,
            countIn r (requested new) = (Plan.distribute n regions).wanted r - s.own.runningIn r)) := by
  refine ⟨shortfall_eq_wanted_iff, fun hdistinct s => ?_⟩
  have hle := countAll_shortfall_le s.own hdistinct
  have hsum : countAll (s.own.shortfall (Plan.distribute n regions)) < wordLimit := by omega
  generalize hrun : (create c patience (Plan.distribute n regions) dryRun).run w s = result
  obtain ⟨before, after, hh, hown, hcourse⟩ := run_create w c patience _ dryRun hsum hrun
  have hcreation := hcourse.creation hh hown
  refine ⟨before ++ after, hh, Nat.le_trans hcreation.requested_le hle, fun hw r => ?_⟩
  obtain ⟨new, hnew, hanswers⟩ := Program.run_answers w (create c patience (Plan.distribute n regions) dryRun) s
  rw [hrun, hh] at hnew
  rw [← List.append_cancel_left hnew] at hanswers
  rw [requested_eq_shortfall hw hcourse hcreation hanswers, shortfall_eq_wanted_iff.mpr hdistinct]

/-- A cloud that launches whatever it is asked for obliges. -/
theorem obliging_launchingCloud : Obliging { bootstrapScript := none } (launchingCloud fun _ => "pending") where
  images _ _ _ _ := ⟨_, _, rfl⟩
  launches _ _ _ _ := by
    have hpending : InstanceState.parse? "pending" = some .pending := InstanceState.parse?_name .pending
    simp [launchingCloud, readableAnswer, InstanceRecord.readable, hpending]
  script _ _ h := by cases h
  consents _ _ := rfl

/-- Of five instances two regions get three and two. One runs in the first region, so two are requested in each. -/
theorem distribute_never_over_provisions_two_regions :
    5 < wordLimit ∧ ([⟨"eu-west-3"⟩, ⟨"us-east-1"⟩] : List Region).Nodup
      ∧ ∃ new, ((create { bootstrapScript := none } 0 (Plan.distribute 5 [⟨"eu-west-3"⟩, ⟨"us-east-1"⟩]) false).run
          (launchingCloud fun _ => "pending") oneThere).2.history = new
        ∧ countAll (requested new) ≤ 5
        ∧ countIn ⟨"eu-west-3"⟩ (requested new) = 2 ∧ countIn ⟨"us-east-1"⟩ (requested new) = 2 := by
  obtain ⟨new, hh, hle, hall⟩ := (distribute_never_over_provisions (launchingCloud fun _ => "pending")
    { bootstrapScript := none } 0 false (n := 5) (by decide) [⟨"eu-west-3"⟩, ⟨"us-east-1"⟩]).2 (by decide) oneThere
  have hcounts := hall obliging_launchingCloud
  exact ⟨by decide, by decide, new, hh, hle, (hcounts _).trans (by decide +kernel), (hcounts _).trans (by decide +kernel)⟩

/-- The cloud that does as it is told obliges. -/
theorem obliging_obedientCloud : Obliging oneRegion obedientCloud where
  images _ _ _ _ := ⟨_, _, rfl⟩
  launches _ _ _ _ := rfl
  script _ _ h := by cases h
  consents _ _ := rfl

/-- A region that is listed twice: of three instances it gets two and one, and two are requested for each entry. -/
theorem distribute_over_provisions_a_region_listed_twice :
    ∃ (c : FleetConfig) (w : World Bool) (regions : List Region), Obliging c w
      ∧ 3 < countAll (requested ((create c 1 (Plan.distribute 3 regions) false).run w (fresh true)).2.history) :=
  ⟨oneRegion, obedientCloud, [⟨"eu-west-3"⟩, ⟨"eu-west-3"⟩], obliging_obedientCloud, by decide +kernel⟩

end Fleet

end CloudFleet
