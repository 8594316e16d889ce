import CloudFleet.Proofs.Fleet.Arrival
import CloudFleet.Proofs.Fleet.Browsing

/-!
# Serving the entries of a shortfall

Launching instances serves the entries one by one: each has one call, with the image of its region (`Serves`), and an
answer with a state that is none is the last one (`Calling`, `serving_launchGroups`). Where the images are known, none
is missing then, nor in anything that follows (`NeedsNoImage`, `launchGroups_images`).
-/

set_option autoImplicit false

namespace CloudFleet

variable {σ : Type}

/-- Whether the error is that a region has no image. -/
def FleetError.imageless : FleetError → Bool
  | imageNotFound _ => true
  | _ => false

/-- A target that does not exist is no missing image. -/
theorem FleetError.not_imageless_of_missing {e : FleetError} (h : e.missing = true) : e.imageless = false := by
  cases e <;> first | rfl | cases h

namespace Fleet

open Program (Ensures)

/-! ## Launching -/

/-- A call that launches instances, with its answer. -/
structure LaunchCall where
  region : Region
  request : LaunchRequest
  dryRun : Bool
  answer : Except CloudError (List InstanceRecord)

/-- The call as an exchange with the world. -/
def LaunchCall.exchange (call : LaunchCall) : (r : Request) × r.Reply :=
  ⟨.cloud (.launch call.region call.request call.dryRun), call.answer⟩

/-- Whether an answer holds no state that is none. -/
def readableAnswer : Except CloudError (List InstanceRecord) → Bool
  | .ok records => records.all InstanceRecord.readable
  | .error _ => true

/-- Whether the answer of the call holds no state that is none. -/
def LaunchCall.readable (call : LaunchCall) : Bool := readableAnswer call.answer

/-- The signal that a dry run would have succeeded names no state. -/
theorem readableAnswer_forgive (dryRun : Bool) (answer : Except CloudError (List InstanceRecord)) :
    readableAnswer (CloudError.forgive dryRun [] answer) = readableAnswer answer := by
  cases answer with
  | ok records => rfl
  | error e => cases e <;> cases dryRun <;> rfl

/-- The request for the instances of an entry. -/
def requestOf (c : FleetConfig) (image : String) (count : Nat) (userData : String) : LaunchRequest :=
  ⟨image, c.instanceType, count, userData, c.securityGroup, c.keyName, c.shutdownBehavior⟩

/-- The call launches the instances of an entry, with the image of its region. -/
def Serves (c : FleetConfig) (f : Fleet) (userData : String) (dryRun : Bool) (entry : Region × Nat)
    (call : LaunchCall) : Prop :=
  ∃ image answer, f.image? entry.1 = some image
    ∧ call = ⟨entry.1, requestOf c image entry.2 userData, dryRun, answer⟩

/-- The entries are served by one call each, in order; an answer with a state that is none is the last one. -/
inductive Calling (serves : Region × Nat → LaunchCall → Prop) : List (Region × Nat) → List LaunchCall → Prop
  | nil : Calling serves [] []
  | cons {entry : Region × Nat} {call : LaunchCall} {entries : List (Region × Nat)} {calls : List LaunchCall}
      (h : serves entry call) (hreadable : call.readable = true) (hcalls : Calling serves entries calls) :
      Calling serves (entry :: entries) (call :: calls)
  | ended {entry : Region × Nat} {call : LaunchCall} (h : serves entry call) (hreadable : call.readable = false)
      (entries : List (Region × Nat)) : Calling serves (entry :: entries) [call]

theorem Calling.mono {serves serves' : Region × Nat → LaunchCall → Prop} (hserves : ∀ entry call, serves entry call →
    serves' entry call) {entries : List (Region × Nat)} {calls : List LaunchCall} (h : Calling serves entries calls) :
    Calling serves' entries calls := by
  induction h with
  | nil => exact .nil
  | cons h hreadable _ ih => exact .cons (hserves _ _ h) hreadable ih
  | ended h hreadable entries => exact .ended (hserves _ _ h) hreadable entries

section Calling

variable {serves : Region × Nat → LaunchCall → Prop} {entries : List (Region × Nat)} {calls : List LaunchCall}
  {α : Type} {g : LaunchCall → α} {k : Region × Nat → Option α}

/-- What the calls have of the entries that they serve they have of the first ones, -/
theorem Calling.prefix_filterMap (h : Calling serves entries calls)
    (hserves : ∀ entry call, serves entry call → k entry = some (g call)) : calls.map g <+: entries.filterMap k := by
  induction h with
  | nil => exact List.prefix_refl _
  | cons h _ _ ih =>
    rw [List.map_cons, List.filterMap_cons_some (hserves _ _ h)]
    exact (List.prefix_cons_inj _).mpr ih
  | ended h _ entries =>
    rw [List.map_singleton, List.filterMap_cons_some (hserves _ _ h)]
    exact (List.prefix_cons_inj _).mpr List.nil_prefix

/-- and of all of them unless one answered with a state that is none. -/
theorem Calling.eq_filterMap (h : Calling serves entries calls)
    (hserves : ∀ entry call, serves entry call → k entry = some (g call))
    (hreadable : ∀ call ∈ calls, call.readable = true) : calls.map g = entries.filterMap k := by
  induction h with
  | nil => rfl
  | cons h _ _ ih =>
    rw [List.map_cons, List.filterMap_cons_some (hserves _ _ h),
      ih fun call hm => hreadable call (List.mem_cons_of_mem _ hm)]
  | ended _ hbad _ =>
    rw [hreadable _ List.mem_cons_self] at hbad
    cases hbad

end Calling

section Serving

variable {c : FleetConfig} {userData : String} {dryRun : Bool} {region : Region} {count : Nat}
  {groups : List (Region × Nat)} {s t u : Run Fleet σ} {image : String}

/-- From one run to another the entries were served, and nothing else was committed. -/
def Serving (c : FleetConfig) (userData : String) (dryRun : Bool) (groups : List (Region × Nat)) (s t : Run Fleet σ) :
    Prop :=
  ∃ new calls, t.history = s.history ++ new ∧ t.own = replay s.own new
    ∧ commitments new = calls.map LaunchCall.exchange ∧ Calling (Serves c t.own userData dryRun) groups calls

theorem launchRequest_of_image {f : Fleet} (h : f.image? region = some image) :
    launchRequest c f region count userData = .ok (requestOf c image count userData) := by
  unfold launchRequest
  rw [h]
  rfl

/-- The call that serves an entry, made in a run. -/
def callIn (w : World σ) (s : Run Fleet σ) (region : Region) (request : LaunchRequest) (dryRun : Bool) : LaunchCall :=
  ⟨region, request, dryRun, s.reply w (.cloud (.launch region request dryRun))⟩

/-- The call of one region, with what follows before the next one is called. -/
theorem Serving.cons {w : World σ} {between : List (Happening Fleet)} (himage : s.own.image? region = some image)
    (hu : u.history = (s.ask w (.cloud (.launch region (requestOf c image count userData) dryRun))).history ++ between)
    (hown : u.own = replay s.own between) (hbetween : commitments between = [])
    (hreadable : (callIn w s region (requestOf c image count userData) dryRun).readable = true)
    (ht : Serving c userData dryRun groups u t) : Serving c userData dryRun ((region, count) :: groups) s t := by
  obtain ⟨new, calls, hh, ho, hcalls, hcalling⟩ := ht
  have hfinal : t.own = replay s.own (.asked (.cloud (.launch region (requestOf c image count userData) dryRun))
      (s.reply w _) :: (between ++ new)) := by
    rw [ho, hown, replay_asked, replay_append]
  refine ⟨_, callIn w s region (requestOf c image count userData) dryRun :: calls, ?_, hfinal, ?_, ?_⟩
  · rw [hh, hu, Run.history_ask]
    simp
  · rw [commitments_committed rfl, commitments_append, hbetween, hcalls]
    rfl
  · refine .cons ⟨image, _, ?_, rfl⟩ hreadable hcalling
    rw [hfinal]
    exact image?_replay_of_eq himage _

/-- The call of one region, after whose answer no other one is called. -/
theorem Serving.ended {w : World σ} {between : List (Happening Fleet)} (himage : s.own.image? region = some image)
    (ht : t.history = (s.ask w (.cloud (.launch region (requestOf c image count userData) dryRun))).history ++ between)
    (hown : t.own = replay s.own between) (hbetween : commitments between = [])
    (hreadable : (callIn w s region (requestOf c image count userData) dryRun).readable = false)
    (groups : List (Region × Nat)) : Serving c userData dryRun ((region, count) :: groups) s t := by
  refine ⟨.asked (.cloud (.launch region (requestOf c image count userData) dryRun)) (s.reply w _) :: between,
    [callIn w s region (requestOf c image count userData) dryRun], ?_, hown, ?_, ?_⟩
  · rw [ht, Run.history_ask, List.append_assoc]
    rfl
  · rw [commitments_committed rfl, hbetween]
    rfl
  · refine .ended ⟨image, _, ?_, rfl⟩ hreadable groups
    rw [hown]
    exact image?_replay_of_eq himage _

/-- What a region answered is registered before whatever serves the other entries, unless it holds a state that is
none. -/
theorem serving_register {w : World σ} {α : Type} {p : FleetProgram α} {records : List InstanceRecord}
    (himage : s.own.image? region = some image)
    (hanswer : CloudError.forgive dryRun []
      (s.reply w (.cloud (.launch region (requestOf c image count userData) dryRun))) = .ok records)
    (hp : ∀ h u, u.own = replay s.own h → Serving c userData dryRun groups u (p.run w u).2) :
    Serving c userData dryRun ((region, count) :: groups) s ((register region records >>= fun _ => p).run w
      ((s.ask w (.cloud (.launch region (requestOf c image count userData) dryRun))).ask w
        (.announce (.launched region records.length)))).2 := by
  generalize hu : (s.ask w (.cloud (.launch region (requestOf c image count userData) dryRun))).ask w
    (.announce (.launched region records.length)) = u
  obtain ⟨new, hh, ho, hnone⟩ := Program.new_of_keeps commitments_append
    (fun committed => (stable_commitments w committed).register region records) u
  have hend := (run_register w region records u).2
  have hbetween : commitments (.asked (.announce (.launched region records.length)) () :: new) = [] := by
    rw [commitments_asked rfl, hnone]
  have hsince : ((register region records).run w u).2.history
      = (s.ask w (.cloud (.launch region (requestOf c image count userData) dryRun))).history
        ++ .asked (.announce (.launched region records.length)) () :: new := by
    rw [hh, ← hu, Run.history_ask, List.append_assoc]
    rfl
  have hown : ((register region records).run w u).2.own
      = replay s.own (.asked (.announce (.launched region records.length)) () :: new) := by
    rw [ho, ← hu]
    rfl
  have hreadable : (callIn w s region (requestOf c image count userData) dryRun).readable
      = records.all InstanceRecord.readable := by
    rw [LaunchCall.readable, callIn, ← readableAnswer_forgive dryRun, hanswer]
    rfl
  rw [Program.run_andThen]
  -- either all records were registered and the launches go on, or a state that is none ended them
  rcases hend with ⟨hgood, ids, v, hv⟩ | ⟨hbad, e, v, hv⟩
  · rw [hv] at hsince hown ⊢
    exact .cons himage hsince hown hbetween (hreadable.trans hgood) (hp _ v hown)
  · rw [hv] at hsince hown ⊢
    exact .ended himage hsince hown hbetween (hreadable.trans (by simpa using hbad)) groups

end Serving

/-- The entries are served in order, if each of their regions has an image. -/
theorem serving_launchGroups (w : World σ) (c : FleetConfig) (userData : String) (dryRun : Bool)
    (groups : List (Region × Nat)) (s : Run Fleet σ)
    (hfound : ∀ group ∈ groups, (s.own.image? group.1).isSome = true) :
    Serving c userData dryRun groups s ((launchGroups c userData dryRun groups).run w s).2 := by
  induction groups generalizing s with
  | nil => exact ⟨[], [], by simp [launchGroups], by simp [launchGroups], rfl, .nil⟩
  | cons group groups ih =>
    obtain ⟨region, count⟩ := group
    obtain ⟨image, himage⟩ := Option.isSome_iff_exists.mp (hfound _ List.mem_cons_self)
    -- images stay, so the other entries can be served in any later run
    have hothers : ∀ h u, u.own = replay s.own h →
        Serving c userData dryRun groups u ((launchGroups c userData dryRun groups).run w u).2 := by
      intro h u hu
      refine ih u fun g hg => ?_
      rw [hu]
      exact image?_replay (hfound g (List.mem_cons_of_mem _ hg)) h
    rw [run_launchGroups_cons w c userData dryRun region count groups (launchRequest_of_image himage)]
    split
    · rename_i e hanswer
      refine .cons (w := w) himage (Run.history_ask ..) rfl (commitments_asked rfl _ _) ?_ (hothers [] _ rfl)
      rw [LaunchCall.readable, callIn, ← readableAnswer_forgive dryRun, hanswer]
      rfl
    · rename_i records hanswer
      exact serving_register himage hanswer hothers

/-! ## Failing for want of an image -/

/-- Groups are missing only where the target is. -/
theorem missing_of_groupsOf {c : FleetConfig} {f : Fleet} {target : Target} {e : FleetError}
    (h : groupsOf c f target = .error e) : e.missing = true := by
  have hmap : ∀ found : Except FleetError Subset, found.map Subset.byRegion = .error e → found = .error e := by
    intro found hfound
    cases found with
    | ok _ => cases hfound
    | error _ => cases hfound; rfl
  unfold groupsOf at h
  split at h
  · cases h
  · exact missing_of_resolve (hmap _ h)

/-- Wherever it starts, the program does not fail for want of an image. -/
def NeedsNoImage {α : Type} (w : World σ) (p : FleetProgram α) : Prop :=
  ∀ s, Ensures w p s (fun _ _ => True) fun e _ => e.imageless = false

namespace NeedsNoImage

variable {α β : Type} {w : World σ}

theorem bind {p : FleetProgram α} {f : α → FleetProgram β} (hp : NeedsNoImage w p) (hf : ∀ a, NeedsNoImage w (f a)) :
    NeedsNoImage w (p >>= f) := fun s => (hp s).bind fun a t _ => hf a t

protected theorem pure (a : α) : NeedsNoImage w (pure a) := fun _ => .pure trivial

theorem request (r : Request) : NeedsNoImage w (.request r) := fun _ => .request trivial

theorem memory : NeedsNoImage w .memory := fun s => .of_run (Program.run_memory w s) trivial

theorem ofExcept {x : Except FleetError α} (h : ∀ e, x = .error e → e.imageless = false) :
    NeedsNoImage w (.ofExcept x) := fun _ => .ofExcept (fun _ _ => trivial) h

theorem resolve (f : Fleet) (target : Target) : NeedsNoImage w (.ofExcept (f.resolve target)) :=
  ofExcept fun _ h => FleetError.not_imageless_of_missing (missing_of_resolve h)

theorem settle (failures : List Failure) : NeedsNoImage w (Fleet.settle failures) := by
  intro s
  have hrun := run_settle w failures s
  split at hrun
  · exact .of_run hrun trivial
  · exact .of_run_failed hrun rfl

theorem refresh (c : FleetConfig) (target : Target) : NeedsNoImage w (Fleet.refresh c target) := by
  intro s
  cases hgroups : groupsOf c s.own target with
  | error e =>
    exact .of_run_failed (refresh_unresolved w c hgroups)
      (FleetError.not_imageless_of_missing (missing_of_groupsOf hgroups))
  | ok groups =>
    rcases refreshed_or_halted w c s hgroups with ⟨attempts, -, t, hrun, -⟩ | ⟨-, -, name, t, hrun, -⟩
    · split at hrun
      · exact .of_run hrun trivial
      · exact .of_run_failed hrun rfl
    · exact .of_run_failed hrun rfl

theorem checkDeadline (limit : Option Duration) (start : Duration) :
    NeedsNoImage w (Fleet.checkDeadline limit start) := by
  intro s
  cases limit with
  | none => exact .pure trivial
  | some limit =>
    refine .ask ?_
    split
    · exact .raise rfl
    · exact .pure trivial

theorem pollFrom (c : FleetConfig) (scope : Target) (limit : Option Duration) (done : Fleet → Bool) (start : Duration)
    (patience polls : Nat) : NeedsNoImage w (Fleet.pollFrom c scope limit done start patience polls) := by
  induction patience generalizing polls with
  | zero =>
    refine memory.bind fun fleet => ?_
    split
    · exact (request _).bind fun _ => .pure _
    · exact (checkDeadline limit start).bind fun _ _ => .stall
  | succ patience ih =>
    refine memory.bind fun fleet => ?_
    split
    · exact (request _).bind fun _ => .pure _
    · refine (checkDeadline limit start).bind fun _ => (request _).bind fun _ => ?_
      exact (refresh c scope).bind fun _ => (request _).bind fun _ => ih _

/-- What follows the launches does not fail for want of an image. -/
theorem awaitLaunched (c : FleetConfig) (patience : Nat) (dryRun : Bool) (failures : List Failure)
    (ids : List InstanceId) : NeedsNoImage w (Fleet.awaitLaunched c patience dryRun failures ids) := by
  refine (settle failures).bind fun _ => ?_
  split
  · exact .pure _
  · refine (refresh c _).bind fun _ => memory.bind fun fleet => (resolve fleet _).bind fun targets => ?_
    have hawait : NeedsNoImage w (Fleet.awaitReachable c patience targets) :=
      (request .stopwatch).bind fun start => pollFrom c _ _ _ start patience 0
    refine hawait.bind fun _ => memory.bind fun fleet => ?_
    exact (resolve fleet _).bind fun _ => .pure _

theorem register (region : Region) (records : List InstanceRecord) :
    NeedsNoImage w (Fleet.register region records) := by
  induction records with
  | nil => exact .pure _
  | cons record records ih =>
    cases hr : record.readable with
    | false => exact fun s => .of_run_failed (run_register_unreadable w region hr records s) rfl
    | true =>
      obtain ⟨state, hp⟩ := Option.isSome_iff_exists.mp hr
      have hobserve : NeedsNoImage w (observe region ⟨record, state, none⟩ : FleetProgram Unit) := fun s =>
        .of_run (run_observe w region _ s) trivial
      simp only [Fleet.register, hp]
      exact hobserve.bind fun _ => ih.bind fun _ => .pure _

end NeedsNoImage

theorem stable_images (w : World σ) (regions : List Region) :
    Stable w fun t : Run Fleet σ => ∀ region ∈ regions, (t.own.image? region).isSome = true :=
  .of_steps (fun _ _ _ h => h) fun _ c h region hr => image?_replay (h region hr) [.changed c]

/-- Where all images are known, launching does not fail for want of one. -/
theorem launchGroups_images (w : World σ) (c : FleetConfig) (userData : String) (dryRun : Bool)
    (groups : List (Region × Nat)) {s : Run Fleet σ}
    (hfound : ∀ region ∈ groups.map Prod.fst, (s.own.image? region).isSome = true) :
    Ensures w (launchGroups c userData dryRun groups) s (fun _ _ => True) fun e _ => e.imageless = false := by
  induction groups generalizing s with
  | nil => exact .pure trivial
  | cons group groups ih =>
    obtain ⟨region, count⟩ := group
    obtain ⟨image, himage⟩ := Option.isSome_iff_exists.mp (hfound region List.mem_cons_self)
    have hothers : ∀ r ∈ groups.map Prod.fst, (s.own.image? r).isSome = true :=
      fun r hr => hfound r (List.mem_cons_of_mem _ hr)
    refine .consult ?_
    rw [launchRequest_of_image himage]
    refine (Ensures.of_run (run_launch w region (requestOf c image count userData) dryRun s)
      (Q := fun _ t => t.own = s.own) rfl).bind fun answer t ht => ?_
    cases answer with
    | error e => exact .ask ((ih (ht ▸ hothers)).bind fun _ _ _ => .pure trivial)
    | ok records =>
      have hkeep := (stable_images w (groups.map Prod.fst)).register region records
      refine .ask (((NeedsNoImage.register region records _).keeping hkeep (ht ▸ hothers)).bind fun new u hu => ?_)
      exact (ih hu.2).bind fun _ _ _ => .pure trivial

end Fleet

end CloudFleet
