import CloudFleet.Proofs.Fleet.Observing

/-!
# How a refresh fails

What came of describing a group is an `Attempt`: its region did not list the instances, did not report their health, or
did both. A refresh tries its groups one after the other. A region that fails adds nothing to what is known, and the
refresh goes on (`Refreshed`); a description with a state that is none ends it, before anything of that description is
taken over (`Halted`). There is no third way (`refreshed_or_halted`).

Main statement, for every fleet, target and world: `refresh_collects_failures_or_halts`.
-/

set_option autoImplicit false

namespace CloudFleet

variable {σ ε : Type}

namespace Fleet

/-! ## What is known after observations -/

/-- The fleet after an instance was observed in a region. -/
def see (f : Fleet) (region : Region) (o : Observation) : Fleet :=
  (if f.knows o.record.id then f else f.apply (.added o.record.id region o.state)).apply
    (.loaded o.record o.state o.status)

/-- The fleet after instances were observed one after the other, each in a region. -/
def seeAll (f : Fleet) (sightings : List (Region × Observation)) : Fleet :=
  sightings.foldl (fun f x => f.see x.1 x.2) f

theorem seeAll_append (f : Fleet) (xs ys : List (Region × Observation)) :
    f.seeAll (xs ++ ys) = (f.seeAll xs).seeAll ys := List.foldl_append

theorem own_listed (w : World σ) (region : Region) (o : Observation) (s : Run Fleet σ) :
    (listed w region o s).own
      = if s.own.knows o.record.id then s.own else s.own.apply (.added o.record.id region o.state) := by
  unfold listed
  split <;> rfl

theorem asks_listed (w : World σ) (region : Region) (o : Observation) (s : Run Fleet σ) :
    Asks s (listed w region o s) [] := by
  by_cases h : s.own.knows o.record.id = true
  · rw [listed_of_knows w region h]
    exact .refl s
  · rw [listed_of_not_knows w region h]
    exact (Asks.tell w s (r := .announce (.discovered o.record.id region)) rfl rfl).trans (.change _ _)

/-- Taking over observations asks nothing. -/
theorem run_observeAll (w : World σ) (region : Region) (os : List Observation) (s : Run Fleet σ) :
    ∃ t, (Program.each (observe region) os : Program Fleet ε Unit).run w s = (.returned (), t)
      ∧ t.own = s.own.seeAll (os.map fun o => (region, o)) ∧ Asks s t [] := by
  induction os generalizing s with
  | nil => exact ⟨s, rfl, rfl, .refl s⟩
  | cons o os ih =>
    have hone := run_observe (ε := ε) w region o s
    obtain ⟨t, hr, hown, hasks⟩ := ih ((listed w region o s).change (Change.loaded o.record o.state o.status))
    refine ⟨t, ?_, ?_, ?_⟩
    · rw [Program.each, Program.run_andThen_of_returned hone]
      exact hr
    · rw [hown, Run.own_change, own_listed]
      rfl
    · exact ((asks_listed w region o s).trans (.change _ _)).trans hasks

/-! ## Reading states -/

/-- The records that name a state, with that state. -/
def observationsOf (found : List (InstanceRecord × Option StatusRecord)) : List Observation :=
  found.filterMap fun x => (InstanceState.parse? x.1.state).map fun state => ⟨x.1, state, x.2⟩

theorem readStates_of_readable {found : List (InstanceRecord × Option StatusRecord)}
    (h : ∀ x ∈ found, x.1.readable = true) :
    readStates found = .ok (observationsOf found) ∧ (observationsOf found).length = found.length := by
  induction found with
  | nil => exact ⟨rfl, rfl⟩
  | cons x found ih =>
    obtain ⟨state, hstate⟩ := Option.isSome_iff_exists.mp (h x List.mem_cons_self)
    obtain ⟨hrest, hlength⟩ := ih fun y hy => h y (List.mem_cons_of_mem _ hy)
    have hcons : observationsOf (x :: found) = ⟨x.1, state, x.2⟩ :: observationsOf found :=
      List.filterMap_cons_some (by rw [hstate]; rfl)
    constructor
    · rw [hcons]
      simp only [readStates, hstate, hrest]
    · rw [hcons, List.length_cons, List.length_cons, hlength]

/-- The first state that is none is the error. -/
theorem readStates_of_unreadable {found : List (InstanceRecord × Option StatusRecord)}
    {x : InstanceRecord × Option StatusRecord} (h : found.find? (fun x => !x.1.readable) = some x) :
    readStates found = .error (.unknownState x.1.state) := by
  induction found with
  | nil => cases h
  | cons y found ih =>
    cases hy : InstanceState.parse? y.1.state with
    | none =>
      have hbad : y.1.readable = false := by simp [InstanceRecord.readable, hy]
      simp only [List.find?_cons, hbad, Bool.not_false, Option.some.injEq] at h
      subst h
      simp only [readStates, hy]
    | some state =>
      have hgood : y.1.readable = true := by simp [InstanceRecord.readable, hy]
      simp only [List.find?_cons, hgood, Bool.not_true] at h
      simp only [readStates, hy, ih h]

/-! ## Describing one group -/

theorem map_fst_withStatuses (records : List InstanceRecord) (statuses : List StatusRecord) :
    (Cloud.withStatuses records statuses).map Prod.fst = records := by
  induction records generalizing statuses with
  | nil => rfl
  | cons record records ih => rw [Cloud.withStatuses, List.map_cons, ih]

/-- What came of describing a group. -/
inductive Attempt
  /-- Its region did not list the instances, -/
  | unlisted (group : Group) (e : CloudError)
  /-- or listed them and did not report their health, -/
  | unchecked (group : Group) (records : List InstanceRecord) (e : CloudError)
  /-- or did both. -/
  | described (group : Group) (records : List InstanceRecord) (statuses : List StatusRecord)

namespace Attempt

def group : Attempt → Group
  | unlisted group _ | unchecked group _ _ | described group _ _ => group

/-- What was asked, with the answers. -/
def exchanges : Attempt → List ((r : Request) × r.Reply)
  | unlisted group e => [⟨.cloud (.describeInstances group.1 group.2), .error e⟩]
  | unchecked group records e =>
    [⟨.cloud (.describeInstances group.1 group.2), .ok records⟩,
     ⟨.cloud (.describeStatuses group.1 group.2), .error e⟩]
  | described group records statuses =>
    [⟨.cloud (.describeInstances group.1 group.2), .ok records⟩,
     ⟨.cloud (.describeStatuses group.1 group.2), .ok statuses⟩]

/-- The instances with their health, or why they were not described. -/
def answer : Attempt → Cloud.Answer (List (InstanceRecord × Option StatusRecord))
  | unlisted _ e | unchecked _ _ e => .error e
  | described _ records statuses => .ok (Cloud.withStatuses records statuses)

/-- The region with its error, if it failed. -/
def failure? (a : Attempt) : Option Failure :=
  match a.answer with
  | .error e => some (a.group.1, e)
  | .ok _ => none

/-- The instances that were described: none if the region failed. -/
def found (a : Attempt) : List (InstanceRecord × Option StatusRecord) :=
  match a.answer with
  | .error _ => []
  | .ok found => found

/-- The first of the described states that is none. -/
def unreadable? (a : Attempt) : Option String :=
  (a.found.find? fun x => !x.1.readable).map fun x => x.1.state

/-- What was observed in the region. -/
def sightings (a : Attempt) : List (Region × Observation) := (observationsOf a.found).map fun o => (a.group.1, o)

theorem readable_of_unreadable?_eq_none {a : Attempt} (h : a.unreadable? = none) :
    ∀ x ∈ a.found, x.1.readable = true := by
  intro x hx
  have := List.find?_eq_none.mp (Option.map_eq_none_iff.mp h) x hx
  simpa using this

end Attempt

theorem run_describe (w : World σ) (group : Group) (s : Run Fleet σ) :
    ∃ (a : Attempt) (t : Run Fleet σ),
      (Cloud.describe group.1 group.2 : Program Fleet ε _).run w s = (.returned a.answer, t)
      ∧ a.group = group ∧ t.own = s.own ∧ Asks s t a.exchanges := by
  let listing := Request.cloud (.describeInstances group.1 group.2)
  let health := Request.cloud (.describeStatuses group.1 group.2)
  have hlisting : Asks s (s.ask w listing) [⟨listing, s.reply w listing⟩] := .ask w s rfl
  unfold Cloud.describe Cloud.call
  rw [Program.run_andThen_of_returned (Program.run_request w listing s)]
  cases hrecords : s.reply w listing with
  | error e =>
    rw [hrecords] at hlisting
    exact ⟨.unlisted group e, _, rfl, rfl, rfl, hlisting⟩
  | ok records =>
    rw [hrecords] at hlisting
    have hhealth := hlisting.trans (.ask w (s.ask w listing) (r := health) rfl)
    dsimp only
    rw [Program.run_andThen_of_returned (Program.run_request w health _)]
    cases hstatuses : (s.ask w listing).reply w health with
    | error e =>
      rw [hstatuses] at hhealth
      exact ⟨.unchecked group records e, _, rfl, rfl, rfl, hhealth⟩
    | ok statuses =>
      rw [hstatuses] at hhealth
      exact ⟨.described group records statuses, _, rfl, rfl, rfl, hhealth⟩

/-! ## Describing many groups -/

/-- The fleet after all that was described in some attempts. -/
def learn (f : Fleet) (attempts : List Attempt) : Fleet := f.seeAll (attempts.flatMap Attempt.sightings)

theorem learn_append (f : Fleet) (as bs : List Attempt) : f.learn (as ++ bs) = (f.learn as).learn bs := by
  rw [learn, List.flatMap_append, seeAll_append]
  rfl

/-- Every group was tried, and what was described is known. -/
structure Tried (groups : List Group) (attempts : List Attempt) (s t : Run Fleet σ) : Prop where
  groups_eq : attempts.map Attempt.group = groups
  readable : ∀ a ∈ attempts, a.unreadable? = none
  own_eq : t.own = s.own.learn attempts
  asks : Asks s t (attempts.flatMap Attempt.exchanges)

/-- The groups were tried up to one that was described with a state that is none. What was described before it is known,
and no later one was asked for. -/
structure Halted (groups : List Group) (before : List Attempt) (last : Attempt) (name : String) (s t : Run Fleet σ) :
    Prop where
  groups_prefix : (before ++ [last]).map Attempt.group <+: groups
  readable : ∀ a ∈ before, a.unreadable? = none
  unreadable : last.unreadable? = some name
  own_eq : t.own = s.own.learn before
  asks : Asks s t ((before ++ [last]).flatMap Attempt.exchanges)

section Attempts

variable {groups : List Group} {attempts : List Attempt} {a : Attempt} {name : String} {s u t : Run Fleet σ}

theorem Tried.nil (s : Run Fleet σ) : Tried [] [] s s := ⟨rfl, by simp, rfl, .refl s⟩

/-- One group, and then others. -/
theorem Tried.append {before later : List Group} {as bs : List Attempt} (h : Tried before as s u)
    (hlater : Tried later bs u t) : Tried (before ++ later) (as ++ bs) s t := by
  refine ⟨?_, fun a ha => ?_, ?_, ?_⟩
  · rw [List.map_append, h.groups_eq, hlater.groups_eq]
  · exact (List.mem_append.mp ha).elim (h.readable a) (hlater.readable a)
  · rw [hlater.own_eq, h.own_eq, learn_append]
  · rw [List.flatMap_append]
    exact h.asks.trans hlater.asks

theorem Halted.here (hbad : a.unreadable? = some name) (hown : t.own = s.own) (hasks : Asks s t a.exchanges)
    (groups : List Group) : Halted (a.group :: groups) [] a name s t := by
  refine ⟨?_, by simp, hbad, hown, ?_⟩
  · exact (List.prefix_cons_inj _).mpr List.nil_prefix
  · simpa using hasks

theorem Halted.after {before later : List Group} {as bs : List Attempt} {last : Attempt} (h : Tried before as s u)
    (hlater : Halted later bs last name u t) : Halted (before ++ later) (as ++ bs) last name s t := by
  refine ⟨?_, fun a ha => ?_, hlater.unreadable, ?_, ?_⟩
  · rw [List.append_assoc, List.map_append, h.groups_eq]
    exact (List.prefix_append_right_inj before).mpr hlater.groups_prefix
  · exact (List.mem_append.mp ha).elim (h.readable a) (hlater.readable a)
  · rw [hlater.own_eq, h.own_eq, learn_append]
  · rw [List.append_assoc, List.flatMap_append]
    exact h.asks.trans hlater.asks

/-- A region that failed adds nothing to what is known, whatever is told of it. -/
theorem Tried.failed {e : CloudError} (he : a.answer = .error e) (hown : t.own = s.own) (hasks : Asks s t a.exchanges) :
    Tried [a.group] [a] s t := by
  have hfound : a.found = [] := by rw [Attempt.found, he]
  refine ⟨rfl, ?_, ?_, ?_⟩
  · simp [Attempt.unreadable?, hfound]
  · simp [learn, Attempt.sightings, hfound, observationsOf, seeAll, hown]
  · simpa using hasks

/-- A description whose states can all be read is taken over in full. -/
theorem Tried.taken (hgood : a.unreadable? = none) (hasks : Asks s t a.exchanges)
    (hown : t.own = s.own.seeAll a.sightings) : Tried [a.group] [a] s t := by
  refine ⟨rfl, ?_, ?_, ?_⟩
  · simpa using hgood
  · simpa [learn] using hown
  · simpa using hasks

end Attempts

/-- Describing the first of some groups: the others follow, or a state that is none ends it all. -/
theorem run_describeGroups_cons (w : World σ) (group : Group) (groups : List Group) (s : Run Fleet σ) :
    (∃ a u, Tried [group] [a] s u ∧ (describeGroups (group :: groups)).run w s
        = (describeGroups groups >>= fun x => pure (a.failure?.toList ++ x.1, a.found.length + x.2)).run w u)
    ∨ ∃ a name u, Halted (group :: groups) [] a name s u
      ∧ (describeGroups (group :: groups)).run w s = (.failed (.unknownState name), u) := by
  obtain ⟨a, u, hr, rfl, hown, hasks⟩ := run_describe (ε := FleetError) w group s
  rw [describeGroups, Program.run_andThen_of_returned hr]
  cases hanswer : a.answer with
  | error e =>
    let line := Request.log ⟨.warn, s!"describe in {a.group.1.name} failed: {e.message}"⟩
    have htold : Asks s (u.ask w line) a.exchanges := by simpa using hasks.trans (.tell w u (r := line) rfl rfl)
    refine Or.inl ⟨a, u.ask w line, .failed hanswer hown htold, ?_⟩
    have hfailure : a.failure? = some (a.group.1, e) := by simp only [Attempt.failure?, hanswer]
    have hfound : a.found = [] := by simp only [Attempt.found, hanswer]
    rw [hfailure, hfound, Program.run_andThen_of_returned (a := ()) (t := u.ask w line) rfl]
    simp
  | ok found =>
    have hfound : a.found = found := by simp only [Attempt.found, hanswer]
    cases hbad : a.unreadable? with
    | some name =>
      obtain ⟨x, hx, rfl⟩ := Option.map_eq_some_iff.mp hbad
      refine Or.inr ⟨a, _, u, .here hbad hown hasks groups, ?_⟩
      dsimp only
      rw [← hfound, readStates_of_unreadable hx]
      rfl
    | none =>
      obtain ⟨hread, hlength⟩ := readStates_of_readable (Attempt.readable_of_unreadable?_eq_none hbad)
      obtain ⟨t, hrun, hown', hasks'⟩ := run_observeAll (ε := FleetError) w a.group.1 (observationsOf a.found) u
      have hfailure : a.failure? = none := by simp only [Attempt.failure?, hanswer]
      have htaken : t.own = s.own.seeAll a.sightings := by rw [hown', hown, Attempt.sightings]
      refine Or.inl ⟨a, t, .taken hbad (by simpa using hasks.trans hasks') htaken, ?_⟩
      dsimp only
      rw [← hfound, hread, hfailure, ← hlength]
      exact Program.run_andThen_of_returned hrun _

/-- Describing groups tries all of them, and gives the regions that failed with the number of instances; or a state that
is none ends it. -/
theorem run_describeGroups (w : World σ) (groups : List Group) (s : Run Fleet σ) :
    (∃ attempts t, (describeGroups groups).run w s
        = (.returned (attempts.filterMap Attempt.failure?, (attempts.flatMap Attempt.found).length), t)
      ∧ Tried groups attempts s t)
    ∨ ∃ before last name t, (describeGroups groups).run w s = (.failed (.unknownState name), t)
      ∧ Halted groups before last name s t := by
  induction groups generalizing s with
  | nil => exact Or.inl ⟨[], s, rfl, .nil s⟩
  | cons group groups ih =>
    rcases run_describeGroups_cons w group groups s with ⟨a, u, htried, hstep⟩ | ⟨a, name, u, hhalted, hrun⟩
    · rw [hstep]
      rcases ih u with ⟨attempts, t, hrest, hlater⟩ | ⟨before, last, name, t, hrest, hlater⟩
      · refine Or.inl ⟨a :: attempts, t, ?_, htried.append hlater⟩
        rw [Program.run_andThen_of_returned hrest]
        cases hf : a.failure? <;> simp [hf]
      · exact Or.inr ⟨a :: before, last, name, t, Program.run_andThen_of_failed hrest _, .after htried hlater⟩
    · exact Or.inr ⟨[], a, name, u, hrun, hhalted⟩

/-! ## Refreshing -/

/-- Every group was tried, what was described is known, the running instances of all groups that were not confirmed were
probed then, those that answered are confirmed, and the refresh was announced once. -/
structure Refreshed (c : FleetConfig) (groups : List Group) (attempts : List Attempt) (connections : List Connection)
    (s t : Run Fleet σ) : Prop where
  groups_eq : attempts.map Attempt.group = groups
  readable : ∀ a ∈ attempts, a.unreadable? = none
  length_eq : connections.length = ((s.own.learn attempts).candidates groups).length
  questions_eq : questions t.history = questions s.history ++ (attempts.flatMap Attempt.exchanges
    ++ probesOf c ((s.own.learn attempts).candidates groups) connections)
  own_eq : t.own = (s.own.learn attempts).confirmEach
    ((answering ((s.own.learn attempts).candidates groups) connections).map Prod.fst)
  refreshes_eq : refreshes t.history = refreshes s.history ++ [(groups.length, (attempts.flatMap Attempt.found).length)]

theorem run_settle (w : World σ) (failures : List Failure) (s : Run Fleet σ) :
    (settle failures).run w s = (if failures = [] then .returned () else .failed (.provider failures), s) := by
  cases failures <;> rfl

/-- Probing after the groups were tried, and the announcement, make a refresh. -/
theorem Tried.refreshed {c : FleetConfig} {groups : List Group} {attempts : List Attempt}
    {connections : List Connection} {w : World σ} {s u t : Run Fleet σ} {probing : List (Happening Fleet)}
    (h : Tried groups attempts s u) (hlength : connections.length = (u.own.candidates groups).length)
    (ht : Asking u t probing)
    (hasks : Asks u t (probesOf c (u.own.candidates groups) connections)) :
    Refreshed c groups attempts connections s
      ((confirmAll t ((answering (u.own.candidates groups) connections).map Prod.fst)).ask w
        (.announce (.refreshed groups.length (attempts.flatMap Attempt.found).length))) := by
  generalize hids : (answering (u.own.candidates groups) connections).map Prod.fst = ids
  have hconfirmed : Asks t (confirmAll t ids) [] := asks_changeEach ids t
  have hall := (h.asks.trans hasks).trans hconfirmed
  have hown := h.own_eq
  refine ⟨h.groups_eq, h.readable, by rw [← hown]; exact hlength, ?_, ?_, ?_⟩
  · rw [Run.history_ask, questions_append, questions_told rfl, hall.questions_eq, ← hown]
    simp
  · rw [Run.own_ask, own_confirmAll, ht.own, ← hown, hids]
  · rw [Run.history_ask, refreshes_append, hall.refreshes_eq]
    rfl

/-- A refresh of a target that can be resolved tries all of its groups, or a state that is none halts it. -/
theorem refreshed_or_halted (w : World σ) (c : FleetConfig) {target : Target} {groups : List Group} (s : Run Fleet σ)
    (hgroups : groupsOf c s.own target = .ok groups) :
    (∃ attempts connections t, (refresh c target).run w s
        = (if attempts.filterMap Attempt.failure? = [] then .returned ()
            else .failed (.provider (attempts.filterMap Attempt.failure?)), t)
      ∧ Refreshed c groups attempts connections s t)
    ∨ ∃ before last name t, (refresh c target).run w s = (.failed (.unknownState name), t)
      ∧ Halted groups before last name s t := by
  have hstart : (refresh c target).run w s = (describeGroups groups >>= fun x => do
      probeRunning c groups
      let _ ← Program.request (.announce (.refreshed groups.length x.2))
      settle x.1 : FleetProgram Unit).run w s := by
    unfold refresh
    rw [Program.run_andThen_of_returned (Program.run_memory w s), hgroups]
    rfl
  rw [hstart]
  rcases run_describeGroups w groups s with ⟨attempts, u, hrun, htried⟩ | ⟨before, last, name, t, hrun, hhalted⟩
  · obtain ⟨connections, t, probing, hprobe, hlength, ha, hq⟩ := run_probeRunning (ε := FleetError) w c groups u
    refine Or.inl ⟨attempts, connections, _, ?_, htried.refreshed (w := w) hlength ha hq⟩
    rw [Program.run_andThen_of_returned hrun, Program.run_andThen_of_returned hprobe,
      Program.run_andThen_of_returned (Program.run_request w _ _), run_settle]
  · exact Or.inr ⟨before, last, name, t, Program.run_andThen_of_failed hrun _, hhalted⟩

/-- A target that cannot be resolved is not refreshed. -/
theorem refresh_unresolved (w : World σ) (c : FleetConfig) {target : Target} {e : FleetError} {s : Run Fleet σ}
    (h : groupsOf c s.own target = .error e) : (refresh c target).run w s = (.failed e, s) := by
  have hraise : (Program.ofExcept (.error e) : FleetProgram (List Group)).run w s = (.failed e, s) := rfl
  unfold refresh
  rw [Program.run_andThen_of_returned (Program.run_memory w s), h, Program.run_andThen_of_failed hraise]

/-- Whatever is known, targeted and answered: a target that cannot be resolved is the error, and nothing happens.
Otherwise either every group was tried, each region that failed is an error in the order of the groups, and without any
the refresh succeeds; or the first state that is none is the error, the groups before it are taken over, and no other
group was asked for, nothing was probed and no refresh announced. -/
theorem refresh_collects_failures_or_halts (w : World σ) (c : FleetConfig) (target : Target) (s : Run Fleet σ) :
    match groupsOf c s.own target with
    | .error e => (refresh c target).run w s = (.failed e, s)
    | .ok groups =>
      (∃ attempts connections t, (refresh c target).run w s
          = (if attempts.filterMap Attempt.failure? = [] then .returned ()
              else .failed (.provider (attempts.filterMap Attempt.failure?)), t)
        ∧ Refreshed c groups attempts connections s t)
      ∨ ∃ before last name t, (refresh c target).run w s = (.failed (.unknownState name), t)
        ∧ Halted groups before last name s t := by
  cases hgroups : groupsOf c s.own target with
  | error e => exact refresh_unresolved w c hgroups
  | ok groups => exact refreshed_or_halted w c s hgroups

end Fleet

end CloudFleet
