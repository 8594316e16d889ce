import CloudFleet.Proofs.Fleet.Observing
import CloudFleet.Proofs.Fleet.Target
import CloudFleet.World.Inert

/-!
# No launched instance is lost before a state that is none

What a history holds of launches are the regions that were called, each with its answer (`launches`). Once the operator
consented, `Fleet.create` calls the regions that lack instances in their order, whatever fails, and ends early only
after an answer with a state that is none (`Covers`); of every answer it registers the records before the first such
state (`Registered`). Main statement, for every registry, plan and world: `create_covers_and_registers`.

Nothing but `Fleet.launchGroups` launches, so what it achieved (`Outcome`) is stable afterwards, and before it the
history is idle (`Idle`).
-/

set_option autoImplicit false

namespace CloudFleet

variable {σ ε : Type}

namespace Fleet

open Program (Keeps Ensures)

/-- The region called to launch instances, with its answer. -/
def launch? : Happening Fleet → Option (Region × Except CloudError (List InstanceRecord))
  | .asked (.cloud (.launch region _ _)) answer => some (region, answer)
  | _ => none

/-- The regions called to launch instances, each with its answer. -/
def launches (h : List (Happening Fleet)) : List (Region × Except CloudError (List InstanceRecord)) :=
  h.filterMap launch?

/-- The operator was asked and consented. -/
def Consented (h : List (Happening Fleet)) : Prop := ∃ question, Happening.asked (.confirm question) true ∈ h

/-- The wanted regions were called in order: all of them, or up to one that answered with a state that is none. -/
structure Covers (wanted : List Region) (called : List (Region × Except CloudError (List InstanceRecord))) : Prop where
  inOrder : called.map Prod.fst <+: wanted
  complete : called.map Prod.fst = wanted
    ∨ ∃ region records, called.getLast? = some (region, .ok records) ∧ ¬records.all InstanceRecord.readable = true

/-- Of every successful answer the records are known, up to the first state that is none. -/
def Registered (f : Fleet) (called : List (Region × Except CloudError (List InstanceRecord))) : Prop :=
  ∀ region records, (region, .ok records) ∈ called →
    ∀ record ∈ records.takeWhile InstanceRecord.readable, f.knows record.id = true

/-! ## Launches of histories -/

theorem launches_append (h k : List (Happening Fleet)) : launches (h ++ k) = launches h ++ launches k :=
  List.filterMap_append

theorem launches_launch (region : Region) (request : LaunchRequest) (dryRun : Bool)
    (answer : Except CloudError (List InstanceRecord)) (h : List (Happening Fleet)) :
    launches (.asked (.cloud (.launch region request dryRun)) answer :: h) = (region, answer) :: launches h := rfl

theorem launches_asked {r : Request} (hr : r.commits = false) (reply : r.Reply) (h : List (Happening Fleet)) :
    launches (.asked r reply :: h) = launches h := by
  have hnone : launch? (.asked r reply) = none := by
    unfold launch?
    split
    · rename_i heq
      cases heq
      cases hr
    · rfl
  exact List.filterMap_cons_none hnone

theorem launches_changed (c : Change) (h : List (Happening Fleet)) :
    launches (.changed c :: h) = launches h := rfl

theorem consented_append {h k : List (Happening Fleet)} : Consented (h ++ k) ↔ Consented h ∨ Consented k := by
  simp only [Consented, List.mem_append]
  constructor
  · rintro ⟨question, hq | hq⟩
    · exact Or.inl ⟨question, hq⟩
    · exact Or.inr ⟨question, hq⟩
  · rintro (⟨question, hq⟩ | ⟨question, hq⟩)
    · exact ⟨question, Or.inl hq⟩
    · exact ⟨question, Or.inr hq⟩

theorem not_consented_asked {r : Request} (hr : r.commits = false) (reply : r.Reply) :
    ¬Consented [.asked r reply] := by
  rintro ⟨question, hq⟩
  cases List.mem_singleton.mp hq
  cases hr

theorem not_consented_changed (c : Change) : ¬Consented [.changed c] := by
  rintro ⟨question, hq⟩
  cases List.mem_singleton.mp hq

/-- What is registered stays so. -/
theorem Registered.replay {f : Fleet} {called : List (Region × Except CloudError (List InstanceRecord))}
    (hf : Registered f called) (h : List (Happening Fleet)) : Registered (replay f h) called :=
  fun region records hm record hr => knows_replay (hf region records hm record hr) h

theorem registered_error (f : Fleet) (region : Region) (e : CloudError) : Registered f [(region, .error e)] := by
  intro r records hm
  cases List.mem_singleton.mp hm

theorem registered_ok {f : Fleet} (region : Region) {records : List InstanceRecord}
    (h : ∀ record ∈ records.takeWhile InstanceRecord.readable, f.knows record.id = true) :
    Registered f [(region, .ok records)] := by
  intro r answered hm
  cases List.mem_singleton.mp hm
  exact h

theorem Registered.cons {f : Fleet} {called : List (Region × Except CloudError (List InstanceRecord))}
    {first : Region × Except CloudError (List InstanceRecord)} (hfirst : Registered f [first])
    (hcalled : Registered f called) : Registered f (first :: called) := by
  intro region records hm
  rcases List.mem_cons.mp hm with heq | hm
  · exact hfirst region records (by rw [heq]; exact List.mem_cons_self)
  · exact hcalled region records hm

/-! ## Registering an answer -/

/-- A record with a state that is none ends the registration. -/
theorem run_register_unreadable (w : World σ) (region : Region) {record : InstanceRecord}
    (hr : record.readable = false) (records : List InstanceRecord) (s : Run Fleet σ) :
    (register region (record :: records)).run w s = (.failed (.unknownState record.state), s) := by
  have hp : InstanceState.parse? record.state = none := by simpa [InstanceRecord.readable] using hr
  simp [register, hp]

/-- A record with a state is known once it is observed, and the other ones are registered then. -/
theorem run_register_readable (w : World σ) (region : Region) {record : InstanceRecord}
    (hr : record.readable = true) (records : List InstanceRecord) (s : Run Fleet σ) :
    ∃ t, t.own.knows record.id = true ∧ (register region (record :: records)).run w s
      = (register region records >>= fun ids => pure (record.id :: ids)).run w t := by
  obtain ⟨state, hp⟩ := Option.isSome_iff_exists.mp hr
  refine ⟨(listed w region ⟨record, state, none⟩ s).change (Change.loaded record state none), ?_, ?_⟩
  · exact knows_replay (knows_listed w region ⟨record, state, none⟩ s) [.changed (Change.loaded record state none)]
  · simp only [register, hp]
    rw [Program.run_andThen, run_observe]

/-- Of an answer the records before the first state that is none become known; without such a state all is well. -/
theorem run_register (w : World σ) (region : Region) (records : List InstanceRecord) (s : Run Fleet σ) :
    (∀ record ∈ records.takeWhile InstanceRecord.readable,
        ((register region records).run w s).2.own.knows record.id = true)
      ∧ ((records.all InstanceRecord.readable = true ∧ ∃ ids t, (register region records).run w s = (.returned ids, t))
        ∨ (¬records.all InstanceRecord.readable = true
          ∧ ∃ e t, (register region records).run w s = (.failed e, t))) := by
  induction records generalizing s with
  | nil => exact ⟨by simp, Or.inl ⟨rfl, [], s, rfl⟩⟩
  | cons record records ih =>
    cases hr : record.readable with
    | false =>
      rw [run_register_unreadable w region hr]
      exact ⟨by simp [hr], Or.inr ⟨by simp [hr], _, _, rfl⟩⟩
    | true =>
      obtain ⟨t, hknows, hrun⟩ := run_register_readable w region hr records s
      obtain ⟨hall, hend⟩ := ih t
      have hlater : ∀ r ∈ (record :: records).takeWhile InstanceRecord.readable,
          ((register region records).run w t).2.own.knows r.id = true := by
        intro r hm
        rw [List.takeWhile_cons_of_pos hr] at hm
        rcases List.mem_cons.mp hm with rfl | hm
        · obtain ⟨new, -, ho⟩ := Program.run_history w (register region records) t
          rw [ho]
          exact knows_replay hknows new
        · exact hall r hm
      rcases hend with ⟨hgood, ids, u, hu⟩ | ⟨hbad, e, u, hu⟩
      · rw [hrun, Program.run_andThen, hu]
        rw [hu] at hlater
        exact ⟨hlater, Or.inl ⟨by simpa [hr] using hgood, _, _, rfl⟩⟩
      · rw [hrun, Program.run_andThen, hu]
        rw [hu] at hlater
        exact ⟨hlater, Or.inr ⟨by simpa [hr] using hbad, _, _, rfl⟩⟩

/-! ## Launching in the regions -/

namespace Covers

variable {wanted : List Region} {called : List (Region × Except CloudError (List InstanceRecord))}

theorem nil : Covers [] [] := ⟨List.prefix_refl _, Or.inl rfl⟩

/-- One more region in front, whatever it answered. -/
theorem cons (h : Covers wanted called) (region : Region) (answer : Except CloudError (List InstanceRecord)) :
    Covers (region :: wanted) ((region, answer) :: called) := by
  refine ⟨(List.prefix_cons_inj region).mpr h.inOrder, ?_⟩
  rcases h.complete with heq | ⟨r, records, hlast, hbad⟩
  · exact Or.inl (by rw [List.map_cons, heq])
  · refine Or.inr ⟨r, records, ?_, hbad⟩
    rw [List.getLast?_cons, hlast]
    rfl

/-- A state that is none ends the launches. -/
theorem ended (region : Region) {records : List InstanceRecord} (hbad : ¬records.all InstanceRecord.readable = true)
    (wanted : List Region) : Covers (region :: wanted) [(region, .ok records)] :=
  ⟨(List.prefix_cons_inj region).mpr List.nil_prefix, Or.inr ⟨region, records, rfl, hbad⟩⟩

end Covers

theorem stable_launches (w : World σ) (called : List (Region × Except CloudError (List InstanceRecord))) :
    Stable w fun t => launches t.history = called := by
  refine Stable.of_steps (fun s r hr hs => ?_) fun s c hs => ?_
  · rw [Run.history_ask, launches_append, launches_asked hr, hs]
    exact List.append_nil called
  · rw [Run.history_change, launches_append, launches_changed, hs]
    exact List.append_nil called

/-- From one run to another the regions were called as wanted, and what they answered was registered. -/
def Launched (wanted : List Region) (s t : Run Fleet σ) : Prop :=
  ∃ new, t.history = s.history ++ new ∧ Covers wanted (launches new) ∧ Registered t.own (launches new)

/-- The call of one region, with what follows before the next one is called. -/
theorem Launched.cons {w : World σ} {wanted : List Region} {s u t : Run Fleet σ} {region : Region}
    (request : LaunchRequest) {between : List (Happening Fleet)}
    (hu : u.history = (s.ask w (.cloud (.launch region request false))).history ++ between)
    (hbetween : launches between = [])
    (hreg : Registered t.own [(region, s.reply w (.cloud (.launch region request false)))])
    (ht : Launched wanted u t) : Launched (region :: wanted) s t := by
  obtain ⟨new, hh, hcovers, hregistered⟩ := ht
  refine ⟨.asked (.cloud (.launch region request false)) (s.reply w _) :: (between ++ new), ?_, ?_, ?_⟩
  · rw [hh, hu, Run.history_ask]
    simp
  · rw [launches_launch, launches_append, hbetween, List.nil_append]
    exact hcovers.cons region _
  · rw [launches_launch, launches_append, hbetween, List.nil_append]
    exact hreg.cons hregistered

/-- The call of one region, after whose answer no other one is called. -/
theorem Launched.ended {w : World σ} {s t : Run Fleet σ} {region : Region} {records : List InstanceRecord}
    (request : LaunchRequest) (wanted : List Region) {between : List (Happening Fleet)}
    (ht : t.history = (s.ask w (.cloud (.launch region request false))).history ++ between)
    (hbetween : launches between = [])
    (hanswer : s.reply w (.cloud (.launch region request false)) = .ok records)
    (hbad : ¬records.all InstanceRecord.readable = true) (hreg : Registered t.own [(region, .ok records)]) :
    Launched (region :: wanted) s t := by
  refine ⟨.asked (.cloud (.launch region request false)) (.ok records) :: between, ?_, ?_, ?_⟩
  · rw [ht, Run.history_ask, hanswer, List.append_assoc]
    rfl
  · rw [launches_launch, hbetween]
    exact Covers.ended region hbad wanted
  · rw [launches_launch, hbetween]
    exact hreg

/-- A launch is its call; a dry run that would have succeeded is a success without instances. -/
theorem run_launch (w : World σ) (region : Region) (request : LaunchRequest) (dryRun : Bool) (s : Run Fleet σ) :
    (Cloud.launch region request dryRun : Program Fleet ε (Cloud.Answer (List InstanceRecord))).run w s
      = (.returned (CloudError.forgive dryRun [] (s.reply w (.cloud (.launch region request dryRun)))),
        s.ask w (.cloud (.launch region request dryRun))) := rfl

/-- What launching in a region with an image does after the call, by the answer. -/
theorem run_launchGroups_cons (w : World σ) (c : FleetConfig) (userData : String) (dryRun : Bool) (region : Region)
    (count : Nat) (groups : List (Region × Nat)) {s : Run Fleet σ} {request : LaunchRequest}
    (hrequest : launchRequest c s.own region count userData = .ok request) :
    ((launchGroups c userData dryRun ((region, count) :: groups)).run w s).2
      = match CloudError.forgive dryRun [] (s.reply w (.cloud (.launch region request dryRun))) with
        | .error e =>
          ((launchGroups c userData dryRun groups).run w ((s.ask w (.cloud (.launch region request dryRun))).ask w
            (.log ⟨.warn, s!"launch in {region.name} failed: {e.message}"⟩))).2
        | .ok records =>
          ((register region records >>= fun _ => launchGroups c userData dryRun groups).run w
            ((s.ask w (.cloud (.launch region request dryRun))).ask w
              (.announce (.launched region records.length)))).2 := by
  rw [launchGroups, Program.run_andThen, Program.run_memory]
  dsimp only
  rw [hrequest, Program.ofExcept, Program.run_andThen]
  dsimp only [Program.run]
  rw [Program.run_andThen, run_launch]
  dsimp only
  cases CloudError.forgive dryRun [] (s.reply w (.cloud (.launch region request dryRun))) with
  | error e =>
    dsimp only
    rw [Program.warn, Program.log, Program.run_andThen, Program.run_request]
    exact Program.run_andThen_pure w _
      (fun found : List Failure × List InstanceId => ((region, e) :: found.1, found.2)) _
  | ok records =>
    dsimp only
    rw [Program.run_andThen, Program.run_request]
    dsimp only
    rw [Program.run_andThen, Program.run_andThen]
    cases (register region records).run w _ with
    | mk ending u =>
      cases ending with
      | returned new =>
        exact Program.run_andThen_pure w _
          (fun found : List Failure × List InstanceId => (found.1, new ++ found.2)) u
      | failed e => rfl
      | crashed => rfl
      | stalled => rfl

/-- What a region answered is registered before whatever launches in the other ones, unless it holds a state that is
none. -/
theorem launched_register {w : World σ} {α : Type} {p : FleetProgram α} {wanted : List Region} {s : Run Fleet σ}
    {region : Region} {request : LaunchRequest} {records : List InstanceRecord}
    (hanswer : s.reply w (.cloud (.launch region request false)) = .ok records)
    (hp : ∀ h u, u.own = replay s.own h → Launched wanted u (p.run w u).2) :
    Launched (region :: wanted) s ((register region records >>= fun _ => p).run w
      ((s.ask w (.cloud (.launch region request false))).ask w (.announce (.launched region records.length)))).2 := by
  generalize hu : (s.ask w (.cloud (.launch region request false))).ask w
    (.announce (.launched region records.length)) = u
  obtain ⟨new, hh, ho, hnone⟩ := Program.new_of_keeps launches_append
    (fun called => (stable_launches w called).register region records) u
  obtain ⟨hknown, hend⟩ := run_register w region records u
  have hbetween : launches (.asked (.announce (.launched region records.length)) () :: new) = [] := by
    rw [launches_asked rfl, hnone]
  have hsince : ((register region records).run w u).2.history
      = (s.ask w (.cloud (.launch region request false))).history
        ++ .asked (.announce (.launched region records.length)) () :: new := by
    rw [hh, ← hu, Run.history_ask, List.append_assoc]
    rfl
  have hown : ((register region records).run w u).2.own = replay s.own new := by
    rw [ho, ← hu]
    rfl
  rw [Program.run_andThen]
  -- either all records were registered and the launches go on, or a state that is none ended them
  rcases hend with ⟨-, ids, v, hv⟩ | ⟨hbad, e, v, hv⟩
  · rw [hv] at hsince hown hknown ⊢
    obtain ⟨later, -, hlater⟩ := Program.run_history w p v
    refine Launched.cons request hsince hbetween ?_ (hp new v hown)
    rw [hanswer, hlater]
    exact (registered_ok region hknown).replay later
  · rw [hv] at hsince hknown ⊢
    exact Launched.ended request wanted hsince hbetween hanswer hbad (registered_ok region hknown)

/-- The regions of the groups are called as wanted, if each of them has an image. -/
theorem launched_launchGroups (w : World σ) (c : FleetConfig) (userData : String) (groups : List (Region × Nat))
    (s : Run Fleet σ) (hfound : ∀ group ∈ groups, (s.own.image? group.1).isSome = true) :
    Launched (groups.map Prod.fst) s ((launchGroups c userData false groups).run w s).2 := by
  induction groups generalizing s with
  | nil => exact ⟨[], by simp [launchGroups], Covers.nil, fun _ _ hm => by cases hm⟩
  | cons group groups ih =>
    obtain ⟨region, count⟩ := group
    obtain ⟨image, himage⟩ := Option.isSome_iff_exists.mp (hfound _ List.mem_cons_self)
    have hrequest : launchRequest c s.own region count userData
        = .ok ⟨image, c.instanceType, count, userData, c.securityGroup, c.keyName, c.shutdownBehavior⟩ := by
      unfold launchRequest
      rw [himage]
    -- images stay, so the other regions can be called from any later run
    have hothers : ∀ h u, u.own = replay s.own h →
        Launched (groups.map Prod.fst) u ((launchGroups c userData false groups).run w u).2 := by
      intro h u hu
      refine ih u fun g hg => ?_
      rw [hu]
      exact image?_replay (hfound g (List.mem_cons_of_mem _ hg)) h
    rw [run_launchGroups_cons w c userData false region count groups hrequest, forgive_false]
    split
    · rename_i e hanswer
      refine Launched.cons (w := w) _ rfl (launches_asked rfl _ _) ?_ (hothers [] _ rfl)
      rw [hanswer]
      exact registered_error _ region e
    · rename_i records hanswer
      exact launched_register hanswer hothers

/-! ## Looking up images -/

/-- The instances are as before, and regions with an image have one. -/
structure Looked (f g : Fleet) : Prop where
  instances : g.instances = f.instances
  images : ∀ region, (f.image? region).isSome = true → (g.image? region).isSome = true

theorem Looked.refl (f : Fleet) : Looked f f := ⟨rfl, fun _ h => h⟩

theorem Looked.trans {f g h : Fleet} (hfg : Looked f g) (hgh : Looked g h) : Looked f h :=
  ⟨hgh.instances.trans hfg.instances, fun region hr => hgh.images region (hfg.images region hr)⟩

theorem looked_imageFound (f : Fleet) (region : Region) (image : String) :
    Looked f (f.apply (.imageFound region image)) :=
  ⟨rfl, fun _ hr => image?_replay hr [.changed (Change.imageFound region image)]⟩

theorem image?_imageFound (f : Fleet) (region : Region) (image : String) :
    ((f.apply (.imageFound region image)).image? region).isSome = true := by
  show ((f.images ++ [(region, image)]).lookup region).isSome = true
  rw [List.lookup_append]
  cases f.images.lookup region <;> simp

/-- Instances are as before, and every region looked up has an image, or is among those found without one. -/
structure Searched (f : Fleet) (regions : List Region) (answer : Cloud.Answer (List (Region × Option String)))
    (g : Fleet) : Prop where
  looked : Looked f g
  image : ∀ found, answer = .ok found → ∀ region ∈ regions, (g.image? region).isSome = true ∨ (region, none) ∈ found

namespace Searched

variable {f g h : Fleet} {region : Region} {regions : List Region}

theorem nil (f : Fleet) : Searched f [] (.ok []) f := ⟨.refl f, by simp⟩

theorem failed (hlooked : Looked f g) (regions : List Region) (e : CloudError) : Searched f regions (.error e) g :=
  ⟨hlooked, by simp⟩

/-- A region that has an image already is not looked up. -/
theorem skip {answer : Cloud.Answer (List (Region × Option String))} (hrest : Searched f regions answer g)
    (hknown : (f.image? region).isSome = true) : Searched f (region :: regions) answer g := by
  refine ⟨hrest.looked, fun found he r hr => ?_⟩
  rcases List.mem_cons.mp hr with rfl | hr
  · exact Or.inl (hrest.looked.images _ hknown)
  · exact hrest.image found he r hr

/-- A region is looked up, with or without success, and then the others. -/
theorem cons {image : Option String} {rest : List (Region × Option String)} (hlooked : Looked f g)
    (hhere : (g.image? region).isSome = true ∨ image = none) (hrest : Searched g regions (.ok rest) h) :
    Searched f (region :: regions) (.ok ((region, image) :: rest)) h := by
  refine ⟨hlooked.trans hrest.looked, fun found he r hr => ?_⟩
  cases he
  rcases List.mem_cons.mp hr with rfl | hr
  · rcases hhere with hhere | rfl
    · exact Or.inl (hrest.looked.images _ hhere)
    · exact Or.inr List.mem_cons_self
  · rcases hrest.image rest rfl r hr with hr | hr
    · exact Or.inl hr
    · exact Or.inr (List.mem_cons_of_mem _ hr)

end Searched

theorem findImages_ensures (w : World σ) (owner namePattern : String) (regions : List Region) (s : Run Fleet σ) :
    Ensures w (findImages owner namePattern regions : Program Fleet ε _) s
      (fun answer t => Searched s.own regions answer t.own) fun _ _ => False := by
  induction regions generalizing s with
  | nil => exact Ensures.pure (.nil s.own)
  | cons region regions ih =>
    refine Ensures.consult ?_
    by_cases hknown : (s.own.image? region).isSome = true
    · rw [if_pos hknown]
      exact (ih s).mono (fun answer t h => h.skip hknown) fun _ _ h => h
    · rw [if_neg hknown]
      refine Ensures.ask ?_
      cases s.reply w (.cloud (.describeImages region owner namePattern)) with
      | error e => exact Ensures.pure (.failed (.refl s.own) _ e)
      | ok images =>
        refine Ensures.ask ?_
        -- whatever was found, the other regions are looked up in the run that is left
        have hrest : ∀ (image : Option String) (u : Run Fleet σ), Looked s.own u.own →
            ((u.own.image? region).isSome = true ∨ image = none) →
            Ensures w (findOthers owner namePattern (region, image) regions : Program Fleet ε _) u
              (fun answer t => Searched s.own (region :: regions) answer t.own) fun _ _ => False := by
          intro image u hlooked hhere
          refine (ih u).bind fun answer v h => ?_
          cases answer with
          | error e => exact Ensures.pure (.failed (hlooked.trans h.looked) _ e)
          | ok rest => exact Ensures.pure (.cons hlooked hhere h)
        dsimp only
        cases (Cloud.latest? images).map ImageRecord.id with
        | none => exact hrest none _ (.refl _) (Or.inr rfl)
        | some image =>
          exact Ensures.change (hrest (some image) _ (looked_imageFound s.own region image)
            (Or.inl (image?_imageFound s.own region image)))

/-- Images are announced only if none is missing. -/
theorem announceImages_ensures (w : World σ) (found : List (Region × Option String)) (s : Run Fleet σ) :
    Ensures w (announceImages found) s (fun _ t => t.own = s.own ∧ ∀ region, (region, none) ∉ found)
      fun e _ => e.missing = false := by
  induction found generalizing s with
  | nil => exact Ensures.pure ⟨rfl, by simp⟩
  | cons entry found ih =>
    obtain ⟨region, image⟩ := entry
    cases image with
    | none => exact Ensures.raise rfl
    | some image =>
      refine Ensures.ask ((ih _).mono (fun _ t ⟨hown, hnone⟩ => ⟨hown, fun r hr => ?_⟩) fun _ _ h => h)
      rcases List.mem_cons.mp hr with heq | hr
      · cases heq
      · exact hnone r hr

/-- If no region fails, each of them has an image. -/
theorem selectImages_ensures (w : World σ) (c : FleetConfig) (regions : List Region) (s : Run Fleet σ) :
    Ensures w (selectImages c regions) s
      (fun failures t => Looked s.own t.own
        ∧ (failures = [] → ∀ region ∈ regions, (t.own.image? region).isSome = true))
      fun e _ => e.missing = false := by
  induction regions generalizing s with
  | nil => exact Ensures.pure ⟨.refl _, by simp⟩
  | cons region regions ih =>
    refine (findImages_ensures w c.imageOwner c.imageNamePattern [region] s).unfailing.bind fun answer t hsearched => ?_
    cases answer with
    | error e =>
      exact (ih t).bind fun failures u ⟨hlooked, _⟩ => Ensures.pure ⟨hsearched.looked.trans hlooked, by simp⟩
    | ok found =>
      refine (announceImages_ensures w found t).bind fun _ u ⟨hown, hnone⟩ => ?_
      have hhere : (u.own.image? region).isSome = true := by
        rw [hown]
        exact (hsearched.image found rfl region List.mem_cons_self).resolve_right (hnone region)
      refine (ih u).mono (fun failures v ⟨hlooked, hall⟩ => ⟨?_, fun hf r hr => ?_⟩) fun _ _ h => h
      · exact hsearched.looked.trans (hown ▸ hlooked)
      · rcases List.mem_cons.mp hr with rfl | hr
        · exact hlooked.images _ hhere
        · exact hall hf r hr

theorem shortfall_congr {f g : Fleet} (h : g.instances = f.instances) (plan : Plan) :
    g.shortfall plan = f.shortfall plan := by
  unfold shortfall running inState filter
  rw [h]

theorem mem_regions_of_mem_shortfall {f : Fleet} {plan : Plan} {entry : Region × Nat}
    (h : entry ∈ f.shortfall plan) : entry.1 ∈ plan.regions := by
  obtain ⟨region, hr, rfl⟩ := List.mem_map.mp h
  exact hr

/-! ## Creating instances -/

/-- Since the first run nothing was launched and no consent was given. -/
def Idle (s t : Run Fleet σ) : Prop :=
  ∃ new, t.history = s.history ++ new ∧ launches new = [] ∧ ¬Consented new

/-- If consent was given since the first run, the regions were called as wanted, and their answers registered. -/
def Outcome (wanted : List Region) (s t : Run Fleet σ) : Prop :=
  ∃ new, t.history = s.history ++ new
    ∧ (Consented new → Covers wanted (launches new) ∧ Registered t.own (launches new))

theorem stable_idle (w : World σ) (s : Run Fleet σ) : Stable w (Idle s) := by
  refine Stable.of_steps (fun t r hr ⟨new, hh, hl, hc⟩ => ?_) fun t c ⟨new, hh, hl, hc⟩ => ?_
  · refine ⟨new ++ [.asked r (t.reply w r)], by simp [hh], ?_, fun h => ?_⟩
    · rw [launches_append, launches_asked hr, hl]
      rfl
    · exact (consented_append.mp h).elim hc (not_consented_asked hr _)
  · refine ⟨new ++ [.changed c], by simp [hh], ?_, fun h => ?_⟩
    · rw [launches_append, launches_changed, hl]
      rfl
    · exact (consented_append.mp h).elim hc (not_consented_changed c)

theorem stable_outcome (w : World σ) (wanted : List Region) (s : Run Fleet σ) : Stable w (Outcome wanted s) := by
  refine Stable.of_steps (fun t r hr ⟨new, hh, ho⟩ => ?_) fun t c ⟨new, hh, ho⟩ => ?_
  · refine ⟨new ++ [.asked r (t.reply w r)], by simp [hh], fun h => ?_⟩
    rw [launches_append, launches_asked hr]
    have h := ho ((consented_append.mp h).resolve_right (not_consented_asked hr _))
    simpa [launches] using h
  · refine ⟨new ++ [.changed c], by simp [hh], fun h => ?_⟩
    rw [launches_append, launches_changed]
    obtain ⟨hcovers, hreg⟩ := ho ((consented_append.mp h).resolve_right (not_consented_changed c))
    have hreg' := hreg.replay [.changed c]
    simp only [launches, List.filterMap_nil, List.append_nil]
    exact ⟨hcovers, hreg'⟩

theorem Idle.outcome {s t : Run Fleet σ} (h : Idle s t) (wanted : List Region) : Outcome wanted s t := by
  obtain ⟨new, hh, -, hc⟩ := h
  exact ⟨new, hh, fun hyes => absurd hyes hc⟩

/-- After an idle time, a refusal is no consent. -/
theorem Idle.refused {w : World σ} {s t : Run Fleet σ} (h : Idle s t) {question : String}
    (hno : t.reply w (.confirm question) = false) (wanted : List Region) :
    Outcome wanted s (t.ask w (.confirm question)) := by
  obtain ⟨new, hh, -, hc⟩ := h
  refine ⟨new ++ [.asked (.confirm question) false], ?_, fun hyes => ?_⟩
  · rw [Run.history_ask, hh, hno, List.append_assoc]
  · rcases consented_append.mp hyes with hyes | ⟨q, hq⟩
    · exact absurd hyes hc
    · cases List.mem_singleton.mp hq

/-- After an idle time and a consent, what the launches achieve is the outcome. -/
theorem Idle.launched {w : World σ} {s t u : Run Fleet σ} (h : Idle s t) {question : String} {wanted : List Region}
    (hu : Launched wanted (t.ask w (.confirm question)) u) : Outcome wanted s u := by
  obtain ⟨new, hh, hl, -⟩ := h
  obtain ⟨later, hh', hcovers, hreg⟩ := hu
  have heq : launches (new ++ .asked (.confirm question) (t.reply w _) :: later) = launches later := by
    rw [launches_append, hl]
    rfl
  refine ⟨new ++ .asked (.confirm question) (t.reply w _) :: later, ?_, fun _ => ?_⟩
  · rw [hh', Run.history_ask, hh]
    simp
  · rw [heq]
    exact ⟨hcovers, hreg⟩

/-- The outcome of asking for consent and launching, if every region that lacks instances has an image. -/
theorem outcome_launchShortfall (w : World σ) (c : FleetConfig) (patience : Nat) (missing : List (Region × Nat))
    (total : Nat) {s t : Run Fleet σ} (hidle : Idle s t)
    (hfound : ∀ entry ∈ missing, (t.own.image? entry.1).isSome = true) :
    Outcome ((missing.filter fun entry => 0 < entry.2).map Prod.fst) s
      ((launchShortfall c patience false missing total).run w t).2 := by
  have hboot := (stable_idle w s).bootstrap c t hidle
  refine Program.after_andThen (hboot.outcome _) fun userData u hu => ?_
  have hidle' : Idle s u := by rwa [hu] at hboot
  have hfound' : ∀ entry ∈ missing.filter fun entry => 0 < entry.2,
      ((u.ask w (.confirm s!"launch {total} instance(s)?")).own.image? entry.1).isSome = true := by
    intro entry hm
    obtain ⟨new, -, ho⟩ := Program.run_history w (bootstrap c) t
    rw [hu] at ho
    rw [Run.own_ask, ho]
    exact image?_replay (hfound entry (List.mem_filter.mp hm).1) new
  rw [Program.run_andThen, Program.run_request]
  dsimp only
  cases hyes : u.reply w (.confirm s!"launch {total} instance(s)?") with
  | true =>
    rw [if_pos rfl]
    have hlaunched := hidle'.launched (launched_launchGroups w c userData _ _ hfound')
    refine Program.after_andThen hlaunched fun launched v hv => ?_
    rw [hv] at hlaunched
    exact (stable_outcome w _ s).awaitLaunched c patience false _ _ v hlaunched
  | false =>
    rw [if_neg Bool.false_ne_true]
    exact (stable_outcome w _ s).asked _ _ rfl rfl (hidle'.refused hyes _)

/-- Whatever the registry, the plan and the world: if the operator consented, the regions that lack instances were
called in their order, all of them unless an answer held a state that is none, and of every successful answer the
records before the first such state are known. -/
theorem create_covers_and_registers (w : World σ) (c : FleetConfig) (patience : Nat) (plan : Plan) (s : Run Fleet σ)
    (new : List (Happening Fleet)) (hnew : ((create c patience plan false).run w s).2.history = s.history ++ new)
    (hyes : Consented new) :
    Covers (((s.own.shortfall plan).filter fun entry => 0 < entry.2).map Prod.fst) (launches new)
      ∧ Registered ((create c patience plan false).run w s).2.own (launches new) := by
  -- what is added to a history is determined by it, so it is enough to find one such addition
  suffices hout : Outcome (((s.own.shortfall plan).filter fun entry => 0 < entry.2).map Prod.fst) s
      ((create c patience plan false).run w s).2 by
    obtain ⟨new', hh, ho⟩ := hout
    rw [hnew] at hh
    cases List.append_cancel_left hh
    exact ho hyes
  have hidle : Idle s s := ⟨[], by simp, rfl, fun ⟨_, hq⟩ => by cases hq⟩
  have himages := (stable_idle w s).selectImages c plan.regions s hidle
  refine Program.after_andThen (himages.outcome _) fun failures t ht => ?_
  obtain ⟨hlooked, hfound⟩ := (selectImages_ensures w c plan.regions s).of_returned ht
  rw [ht] at himages
  cases failures with
  | cons failure failures => exact himages.outcome _
  | nil =>
    have hsettled : (settle []).run w t = (.returned (), t) := rfl
    rw [Program.run_andThen, hsettled]
    dsimp only
    rw [Program.run_andThen, Program.run_memory]
    dsimp only
    rw [shortfall_congr hlooked.instances]
    split
    · exact himages.outcome _
    · rename_i total _
      let planned := Request.announce (.launchPlanned (s.own.shortfall plan) t.own.running.length total)
      have hplanned : Idle s (t.ask w planned) := (stable_idle w s).asked t planned rfl rfl himages
      rw [Program.run_andThen, Program.run_request]
      dsimp only
      split
      · exact hplanned.outcome _
      · refine outcome_launchShortfall w c patience _ total hplanned fun entry hm => ?_
        exact hfound rfl _ (mem_regions_of_mem_shortfall hm)

/-! ## Two regions -/

/-- A cloud that has an image for every region and launches one instance in each, in a state by the region; the operator
consents to everything. -/
def launchingCloud (state : Region → String) : World Unit where
  answer
    | .cloud (.describeImages ..), _ => (.ok [⟨"ami-1", "2024"⟩], ())
    | .cloud (.launch region ..), _ => (.ok [⟨"i-" ++ region.name, none, state region⟩], ())
    | .confirm _, _ => (true, ())
    | r, _ => (r.unanswered, ())

/-- One instance in each of two regions. -/
def twoRegions : Plan := ⟨[(⟨"eu-west-3"⟩, 1), (⟨"us-east-1"⟩, 1)]⟩

/-- What happens when one instance is wanted in each of two regions, and nothing is known. -/
def launchedTwo (state : Region → String) : Run Fleet Unit :=
  ((create { bootstrapScript := none } 0 twoRegions false).run (launchingCloud state) (fresh ())).2

theorem create_covers_and_registers_two_regions :
    Consented (launchedTwo fun _ => "pending").history
      ∧ Covers [⟨"eu-west-3"⟩, ⟨"us-east-1"⟩] (launches (launchedTwo fun _ => "pending").history)
      ∧ Registered (launchedTwo fun _ => "pending").own (launches (launchedTwo fun _ => "pending").history) := by
  have hyes : Consented (launchedTwo fun _ => "pending").history :=
    ⟨"launch 2 instance(s)?", List.mem_of_getElem? (i := 9) rfl⟩
  exact ⟨hyes, create_covers_and_registers _ _ 0 twoRegions (fresh ()) _ rfl hyes⟩

/-- A state that is none in the first of two regions: the operator consented, but the second region is never called, and
the instance that the first one launched is not known. -/
theorem create_skips_a_region_and_loses_an_instance :
    ∃ state : Region → String, Consented (launchedTwo state).history
      ∧ (launches (launchedTwo state).history).map Prod.fst
          ≠ (((fresh ()).own.shortfall twoRegions).filter fun entry => 0 < entry.2).map Prod.fst
      ∧ ¬∀ region records, (region, .ok records) ∈ launches (launchedTwo state).history →
          ∀ record ∈ records, (launchedTwo state).own.knows record.id = true := by
  refine ⟨fun region => if region = ⟨"eu-west-3"⟩ then "hibernating" else "pending", ?_, ?_, fun h => ?_⟩
  · exact ⟨"launch 2 instance(s)?", List.mem_of_getElem? (i := 9) rfl⟩
  · decide +kernel
  · have hknown := h ⟨"eu-west-3"⟩ [⟨"i-eu-west-3", none, "hibernating"⟩] (List.mem_of_getElem? (i := 0) rfl) _
      List.mem_cons_self
    have hunknown : ¬(launchedTwo fun region => if region = ⟨"eu-west-3"⟩ then "hibernating" else "pending").own.knows
        "i-eu-west-3" = true := by decide +kernel
    exact hunknown hknown

end Fleet

end CloudFleet
