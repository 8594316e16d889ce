import CloudFleet.Fleet.SecurityGroup
import CloudFleet.Proofs.Fleet.Describing

/-!
# Rebuilding groups

What is asked when the group of a region is rebuilt. After the groups were listed, steps are taken one after the
other, each with one call, up to the first that is refused (`Takes`): the group is deleted if it was listed, created,
and its ports are opened (`replacement`). Whatever the world answers, a rebuild is one of these courses
(`run_rebuildGroup`), and every region gets one, in the order of the configuration (`run_rebuildGroups`).
-/

set_option autoImplicit false

namespace CloudFleet.Fleet

variable {σ : Type}

/-! ## Steps -/

/-- Something done to a group of a region. -/
inductive GroupStep
  | delete
  | create (description : String)
  | openPort (port : UInt16)

namespace GroupStep

/-- The call for a step. -/
def call (region : Region) (name : String) : GroupStep → FleetProgram (Cloud.Answer Unit)
  | delete => Cloud.call (.deleteGroup region name)
  | create description => Cloud.call (.createGroup region name description)
  | openPort port => Cloud.call (.openPort region name port)

/-- The request for a step. -/
def request (region : Region) (name : String) : GroupStep → Request
  | delete => .cloud (.deleteGroup region name)
  | create description => .cloud (.createGroup region name description)
  | openPort port => .cloud (.openPort region name port)

/-- The call for a step, with the answer. -/
def exchange (region : Region) (name : String) : GroupStep → Cloud.Answer Unit → (r : Request) × r.Reply
  | delete, answer => ⟨.cloud (.deleteGroup region name), answer⟩
  | create description, answer => ⟨.cloud (.createGroup region name description), answer⟩
  | openPort port, answer => ⟨.cloud (.openPort region name port), answer⟩

/-- What is announced after a step. -/
def event (region : Region) : GroupStep → Event
  | delete => .groupDeleted region
  | create _ => .groupCreated region
  | openPort port => .portOpened region port

/-- Take a step, and go on unless it is refused. -/
def andThen (region : Region) (name : String) (step : GroupStep) (next : FleetProgram (Cloud.Answer Unit)) :
    FleetProgram (Cloud.Answer Unit) := do
  match ← step.call region name with
  | .error e => pure (.error e)
  | .ok () =>
    let _ ← Program.request (.announce (step.event region))
    next

theorem run_call (w : World σ) (region : Region) (name : String) (step : GroupStep) (s : Run Fleet σ) :
    ∃ answer t, (step.call region name).run w s = (.returned answer, t)
      ∧ Asks s t [step.exchange region name answer] ∧ t.own = s.own := by
  cases step with
  | delete => exact ⟨_, _, rfl, .ask w s rfl, rfl⟩
  | create description => exact ⟨_, _, rfl, .ask w s rfl, rfl⟩
  | openPort port => exact ⟨_, _, rfl, .ask w s rfl, rfl⟩

@[simp] theorem fst_exchange (region : Region) (name : String) (step : GroupStep) (answer : Cloud.Answer Unit) :
    (step.exchange region name answer).1 = step.request region name := by
  cases step <;> rfl

theorem refreshed?_event (region : Region) (step : GroupStep) :
    (Request.announce (step.event region)).refreshed? = none := by
  cases step <;> rfl

end GroupStep

/-- Steps are taken one after the other up to the first that is refused: what comes of them, and what is asked. -/
inductive Takes (region : Region) (name : String) :
    List GroupStep → Cloud.Answer Unit → List ((r : Request) × r.Reply) → Prop
  | done : Takes region name [] (.ok ()) []
  | taken (step : GroupStep) {steps : List GroupStep} {result : Cloud.Answer Unit} {xs : List ((r : Request) × r.Reply)}
    (h : Takes region name steps result xs) :
    Takes region name (step :: steps) result (step.exchange region name (.ok ()) :: xs)
  | refused (step : GroupStep) (steps : List GroupStep) (e : CloudError) :
    Takes region name (step :: steps) (.error e) [step.exchange region name (.error e)]

/-- The error of a call that failed. -/
def refusal? : ((r : Request) × r.Reply) → Option CloudError
  | ⟨.cloud _, .error e⟩ => some e
  | _ => none

/-- The error, if there is one. -/
def errors : Cloud.Answer Unit → List CloudError
  | .error e => [e]
  | .ok () => []

@[simp] theorem refusal?_ok (region : Region) (name : String) (step : GroupStep) :
    refusal? (step.exchange region name (.ok ())) = none := by
  cases step <;> rfl

@[simp] theorem refusal?_error (region : Region) (name : String) (step : GroupStep) (e : CloudError) :
    refusal? (step.exchange region name (.error e)) = some e := by
  cases step <;> rfl

/-- Whatever the world answers, the program takes the steps. -/
def Follows (w : World σ) (region : Region) (name : String) (p : FleetProgram (Cloud.Answer Unit))
    (steps : List GroupStep) : Prop :=
  ∀ s : Run Fleet σ, ∃ result xs t, p.run w s = (.returned result, t) ∧ Takes region name steps result xs
    ∧ Asks s t xs ∧ t.own = s.own

section Steps

variable {w : World σ} {region : Region} {name : String}

/-- The first step is asked for first. -/
theorem Takes.head?_asked {steps : List GroupStep} {result : Cloud.Answer Unit} {xs : List ((r : Request) × r.Reply)}
    (h : Takes region name steps result xs) :
    (xs.map Sigma.fst).head? = steps.head?.map (GroupStep.request region name) := by
  cases h <;> simp

/-- Nothing but steps is asked for. -/
theorem Takes.exists_step {steps : List GroupStep} {result : Cloud.Answer Unit} {xs : List ((r : Request) × r.Reply)}
    (h : Takes region name steps result xs) : ∀ x ∈ xs, ∃ step : GroupStep, x.1 = step.request region name := by
  induction h with
  | done => exact nofun
  | taken step h ih => exact List.forall_mem_cons.mpr ⟨⟨step, step.fst_exchange region name _⟩, ih⟩
  | refused step steps e => exact List.forall_mem_singleton.mpr ⟨step, step.fst_exchange region name _⟩

/-- Only the last call can fail, and its error is what comes of the steps. -/
theorem Takes.refusals {steps : List GroupStep} {result : Cloud.Answer Unit} {xs : List ((r : Request) × r.Reply)}
    (h : Takes region name steps result xs) : xs.filterMap refusal? = errors result := by
  induction h with
  | done => rfl
  | taken step h ih => rw [List.filterMap_cons_none (refusal?_ok region name step), ih]
  | refused step steps e => rw [List.filterMap_cons_some (refusal?_error region name step e)]; rfl

theorem Takes.append_ok {before after : List GroupStep} {result : Cloud.Answer Unit}
    {xs ys : List ((r : Request) × r.Reply)} (h : Takes region name before (.ok ()) xs)
    (hafter : Takes region name after result ys) : Takes region name (before ++ after) result (xs ++ ys) := by
  induction before generalizing xs with
  | nil =>
    cases h
    exact hafter
  | cons step before ih =>
    cases h with
    | taken _ h => exact .taken step (ih h)

theorem Takes.append_error {before : List GroupStep} {e : CloudError} {xs : List ((r : Request) × r.Reply)}
    (h : Takes region name before (.error e) xs) (after : List GroupStep) :
    Takes region name (before ++ after) (.error e) xs := by
  induction before generalizing xs with
  | nil => cases h
  | cons step before ih =>
    cases h with
    | taken _ h => exact .taken step (ih h)
    | refused => exact .refused step (before ++ after) e

theorem Follows.done : Follows w region name (pure (.ok ())) [] := fun s => ⟨.ok (), [], s, rfl, .done, .refl s, rfl⟩

theorem Follows.andThen (step : GroupStep) {next : FleetProgram (Cloud.Answer Unit)} {steps : List GroupStep}
    (h : Follows w region name next steps) : Follows w region name (step.andThen region name next) (step :: steps) := by
  intro s
  obtain ⟨answer, t, hcall, hasks, hown⟩ := step.run_call w region name s
  unfold GroupStep.andThen
  rw [Program.run_andThen_of_returned hcall]
  cases answer with
  | error e => exact ⟨.error e, _, t, rfl, .refused step steps e, hasks, hown⟩
  | ok done =>
    let announcement := Request.announce (step.event region)
    obtain ⟨result, xs, u, hnext, htakes, hlater, hown'⟩ := h (t.ask w announcement)
    have htold : Asks t (t.ask w announcement) [] := .tell w t rfl (step.refreshed?_event region)
    refine ⟨result, _, u, hnext, .taken step htakes, ?_, hown'.trans hown⟩
    exact (hasks.trans htold).trans hlater

/-- Steps after others, unless one of those is refused. -/
theorem Follows.append {p q : FleetProgram (Cloud.Answer Unit)} {before after : List GroupStep}
    (hp : Follows w region name p before) (hq : Follows w region name q after) :
    Follows w region name (do
      match ← p with
      | .error e => pure (.error e)
      | .ok () => q) (before ++ after) := by
  intro s
  obtain ⟨result, xs, t, hrun, htakes, hasks, hown⟩ := hp s
  rw [Program.run_andThen_of_returned hrun]
  cases result with
  | error e => exact ⟨.error e, xs, t, rfl, htakes.append_error after, hasks, hown⟩
  | ok done =>
    obtain ⟨result, ys, u, hrest, hlater, hasks', hown'⟩ := hq t
    exact ⟨result, xs ++ ys, u, hrest, htakes.append_ok hlater, hasks.trans hasks', hown'.trans hown⟩

theorem openPorts_cons (port : UInt16) (ports : List UInt16) :
    openPorts region name (port :: ports)
      = (GroupStep.openPort port).andThen region name (openPorts region name ports) := by
  refine congrArg (Bind.bind _) (funext fun answer => ?_)
  cases answer <;> rfl

theorem deleteGroup_of_mem {existing : List String} (h : name ∈ existing) :
    deleteGroup region name existing = GroupStep.delete.andThen region name (pure (.ok ())) := by
  rw [deleteGroup, if_pos (List.contains_iff_mem.mpr h)]
  refine congrArg (Bind.bind _) (funext fun answer => ?_)
  cases answer <;> rfl

theorem deleteGroup_of_not_mem {existing : List String} (h : name ∉ existing) :
    deleteGroup region name existing = pure (.ok ()) := by
  rw [deleteGroup, if_neg (mt List.contains_iff_mem.mp h)]

theorem follows_openPorts (ports : List UInt16) :
    Follows w region name (openPorts region name ports) (ports.map .openPort) := by
  induction ports with
  | nil => exact .done
  | cons port ports ih =>
    rw [openPorts_cons]
    exact .andThen (.openPort port) ih

theorem follows_deleteGroup (existing : List String) :
    Follows w region name (deleteGroup region name existing) (if name ∈ existing then [.delete] else []) := by
  split
  · rename_i h
    rw [deleteGroup_of_mem h]
    exact .andThen .delete .done
  · rename_i h
    rw [deleteGroup_of_not_mem h]
    exact .done

end Steps

/-! ## One region -/

/-- The steps that rebuild the configured group, where these groups exist. -/
def replacement (c : FleetConfig) (existing : List String) : List GroupStep :=
  (if c.securityGroup ∈ existing then [.delete] else [])
    ++ .create c.securityGroupDescription :: c.ingressPorts.map .openPort

theorem head?_replacement (c : FleetConfig) (existing : List String) :
    (replacement c existing).head? =
      some (if c.securityGroup ∈ existing then .delete else .create c.securityGroupDescription) := by
  unfold replacement
  split <;> rfl

/-- The course of rebuilding the group of a region: what comes of it, and what is asked. -/
inductive Rebuilds (c : FleetConfig) (region : Region) : Cloud.Answer Unit → List ((r : Request) × r.Reply) → Prop
  /-- The region does not list its groups. -/
  | unlisted (e : CloudError) : Rebuilds c region (.error e) [⟨.cloud (.listGroups region), .error e⟩]
  /-- The region lists its groups, and steps are taken. -/
  | listed (existing : List String) {result : Cloud.Answer Unit} {xs : List ((r : Request) × r.Reply)}
    (h : Takes region c.securityGroup (replacement c existing) result xs) :
    Rebuilds c region result (⟨.cloud (.listGroups region), .ok existing⟩ :: xs)

/-- An attempt has one call that failed, whose error is returned, or none. -/
theorem Rebuilds.refusals {c : FleetConfig} {region : Region} {result : Cloud.Answer Unit}
    {xs : List ((r : Request) × r.Reply)} (h : Rebuilds c region result xs) :
    xs.filterMap refusal? = errors result := by
  cases h with
  | unlisted e => rfl
  | listed existing h => exact h.refusals

theorem rebuildGroup_eq (c : FleetConfig) (region : Region) :
    rebuildGroup c region = (do
      match ← Cloud.call (.listGroups region) with
      | .error e => pure (.error e)
      | .ok existing =>
        match ← deleteGroup region c.securityGroup existing with
        | .error e => pure (.error e)
        | .ok () =>
          (GroupStep.create c.securityGroupDescription).andThen region c.securityGroup
            (openPorts region c.securityGroup c.ingressPorts)) := by
  refine congrArg (Bind.bind _) (funext fun listing => ?_)
  cases listing with
  | error e => rfl
  | ok existing =>
    refine congrArg (Bind.bind _) (funext fun deletion => ?_)
    cases deletion with
    | error e => rfl
    | ok done =>
      refine congrArg (Bind.bind _) (funext fun creation => ?_)
      cases creation <;> rfl

/-- Whatever the world answers, the group is rebuilt, beginning with the list that the world gives. -/
theorem run_rebuildGroup (w : World σ) (c : FleetConfig) (region : Region) (s : Run Fleet σ) :
    ∃ result xs t, (rebuildGroup c region).run w s = (.returned result, t) ∧ Rebuilds c region result xs
      ∧ xs.head? = some ⟨.cloud (.listGroups region), s.reply w (.cloud (.listGroups region))⟩
      ∧ Asks s t xs ∧ t.own = s.own := by
  let listing := Request.cloud (.listGroups region)
  have hasked : Asks s (s.ask w listing) [⟨listing, s.reply w listing⟩] := .ask w s rfl
  have hcreate : Follows w region c.securityGroup
      ((GroupStep.create c.securityGroupDescription).andThen region c.securityGroup
        (openPorts region c.securityGroup c.ingressPorts))
      (.create c.securityGroupDescription :: c.ingressPorts.map .openPort) :=
    .andThen _ (follows_openPorts c.ingressPorts)
  rw [rebuildGroup_eq, Cloud.call, Program.run_andThen_of_returned (Program.run_request w listing s)]
  cases hlist : s.reply w listing with
  | error e =>
    rw [hlist] at hasked
    exact ⟨.error e, _, s.ask w listing, rfl, .unlisted e, hlist ▸ rfl, hasked, rfl⟩
  | ok existing =>
    rw [hlist] at hasked
    obtain ⟨result, xs, t, hrun, htakes, hasks, hown⟩ :=
      (follows_deleteGroup existing).append hcreate (s.ask w listing)
    exact ⟨result, _, t, hrun, .listed existing htakes, hlist ▸ rfl, hasked.trans hasks, hown⟩

/-! ## All regions -/

/-- An attempt to rebuild the group of a region, with what was asked. -/
structure Rebuild where
  region : Region
  result : Cloud.Answer Unit
  asked : List ((r : Request) × r.Reply)

/-- The region with the error, if the attempt failed. -/
def Rebuild.failure? (r : Rebuild) : Option Failure :=
  match r.result with
  | .error e => some (r.region, e)
  | .ok () => none

theorem Rebuild.failure?_eq_none_iff {r : Rebuild} : r.failure? = none ↔ errors r.result = [] := by
  unfold failure?
  cases r.result with
  | error e => exact iff_of_false nofun nofun
  | ok done => exact iff_of_true rfl rfl

/-- From one run to another the group was rebuilt in these regions, and nothing else was asked. -/
structure Rebuilt (c : FleetConfig) (regions : List Region) (rebuilds : List Rebuild) (s t : Run Fleet σ) : Prop where
  regions_eq : rebuilds.map Rebuild.region = regions
  courses : ∀ r ∈ rebuilds, Rebuilds c r.region r.result r.asked
  asks : Asks s t (rebuilds.flatMap Rebuild.asked)
  own : t.own = s.own

theorem Rebuilt.cons {c : FleetConfig} {region : Region} {regions : List Region} {rebuilds : List Rebuild}
    {result : Cloud.Answer Unit} {xs : List ((r : Request) × r.Reply)} {s u t : Run Fleet σ}
    (hcourse : Rebuilds c region result xs) (hasks : Asks s u xs) (hown : u.own = s.own)
    (h : Rebuilt c regions rebuilds u t) :
    Rebuilt c (region :: regions) (⟨region, result, xs⟩ :: rebuilds) s t where
  regions_eq := congrArg (region :: ·) h.regions_eq
  courses := List.forall_mem_cons.mpr ⟨hcourse, h.courses⟩
  asks := hasks.trans h.asks
  own := h.own.trans hown

theorem run_rebuildGroupsOf (w : World σ) (c : FleetConfig) (regions : List Region) (s : Run Fleet σ) :
    ∃ rebuilds t, (rebuildGroupsOf c regions).run w s = (.returned (rebuilds.filterMap Rebuild.failure?), t)
      ∧ Rebuilt c regions rebuilds s t := by
  induction regions generalizing s with
  | nil => exact ⟨[], s, rfl, rfl, nofun, .refl s, rfl⟩
  | cons region regions ih =>
    obtain ⟨result, xs, u, hrun, hcourse, -, hasks, hown⟩ := run_rebuildGroup w c region s
    rw [rebuildGroupsOf, Program.run_andThen_of_returned hrun]
    cases result with
    | ok done =>
      obtain ⟨rebuilds, t, hrest, hrebuilt⟩ := ih u
      exact ⟨⟨region, .ok (), xs⟩ :: rebuilds, t, hrest, hrebuilt.cons hcourse hasks hown⟩
    | error e =>
      let line := Request.log ⟨.warn, s!"security group in {region.name} failed: {e.message}"⟩
      obtain ⟨rebuilds, t, hrest, hrebuilt⟩ := ih (u.ask w line)
      have htold : Asks s (u.ask w line) xs := by simpa using hasks.trans (.tell w u (r := line) rfl rfl)
      refine ⟨⟨region, .error e, xs⟩ :: rebuilds, t, ?_, hrebuilt.cons hcourse htold hown⟩
      refine (Program.run_andThen_of_returned (Program.run_request w line u) _).trans ?_
      exact Program.run_andThen_of_returned hrest _

/-- Whatever the world answers, the group is rebuilt in every configured region, and the failures are returned. -/
theorem run_rebuildGroups (w : World σ) (c : FleetConfig) (s : Run Fleet σ) :
    ∃ rebuilds t, (rebuildGroups c).run w s
        = (if rebuilds.filterMap Rebuild.failure? = [] then .returned ()
          else .failed (.provider (rebuilds.filterMap Rebuild.failure?)), t)
      ∧ Rebuilt c c.regions rebuilds s t := by
  obtain ⟨rebuilds, t, hrun, hrebuilt⟩ := run_rebuildGroupsOf w c c.regions s
  refine ⟨rebuilds, t, ?_, hrebuilt⟩
  rw [rebuildGroups, Program.run_andThen_of_returned hrun]
  exact run_settle w _ t

end CloudFleet.Fleet
