import CloudFleet.Proofs.Fleet.DryRuns
import CloudFleet.Proofs.World.Raising

/-!
# What is checked before instances are moved

Starting, stopping and rebooting look at their targets first. A target that does not resolve fails for the first of its
identifiers that is not known, or for its position (`Unresolved`); one that resolves fails for the first of its
instances that is not in the state required. Then nothing has happened at all: the run is the one that there was
before. Once all targets have passed, no error of these kinds follows, whatever is answered
(`preconditions_come_first`).
-/

set_option autoImplicit false

namespace CloudFleet

variable {σ : Type}

/-- Whether the error is that an instance is not in the state required. -/
def FleetError.misplaced : FleetError → Bool
  | invalidState .. => true
  | _ => false

/-- Which mention comes first does not depend on later mentions. -/
theorem find?_firstMentions (p : InstanceId → Bool) (ids : List InstanceId) :
    (firstMentions ids).find? p = ids.find? p := by
  induction ids with
  | nil => rfl
  | cons id ids ih =>
    rw [firstMentions]
    cases hid : p id with
    | true => rw [List.find?_cons_of_pos hid, List.find?_cons_of_pos hid]
    | false =>
      have hnot : ¬p id = true := by simp [hid]
      rw [List.find?_cons_of_neg hnot, List.find?_cons_of_neg hnot, List.find?_filter, ← ih]
      refine congrArg (List.find? · _) (funext fun other => ?_)
      by_cases h : other = id <;> simp [h, hid]

namespace Fleet

open Program (Ensures Keeps Raises)

/-! ## Targets that do not resolve -/

/-- A target that does not resolve, with the error. -/
inductive Unresolved (f : Fleet) : Target → FleetError → Prop
  /-- The identifier is not known. -/
  | id {id : InstanceId} (h : f.knows id = false) : Unresolved f (.id id) (.notFound s!"id {id}")
  /-- The position is outside of the list, counted from either end. -/
  | index {i : Int} (h : i < -(f.size : Int) ∨ (f.size : Int) ≤ i) :
    Unresolved f (.index i) (.indexOutOfRange i f.size)
  /-- The first of the identifiers that are not known. -/
  | ids {ids : List InstanceId} {id : InstanceId} (h : ids.find? (fun id => !f.knows id) = some id) :
    Unresolved f (.ids ids) (.notFound s!"id {id}")
  | subset {sub : Subset} {id : InstanceId} (h : sub.ids.find? (fun id => !f.knows id) = some id) :
    Unresolved f (.subset sub) (.notFound s!"id {id}")

section Resolution

variable {f : Fleet}

theorem lookup_eq_error_iff {id : InstanceId} {e : FleetError} :
    f.lookup id = .error e ↔ f.knows id = false ∧ e = .notFound s!"id {id}" := by
  unfold lookup knows
  cases f.get? id with
  | none => simp [eq_comm]
  | some i => simp

/-- Looking up fails for the first identifier that is not known. -/
theorem lookupAll_eq_error_iff {ids : List InstanceId} {e : FleetError} :
    f.lookupAll ids = .error e ↔
      ∃ id, ids.find? (fun id => !f.knows id) = some id ∧ e = .notFound s!"id {id}" := by
  induction ids with
  | nil => simp [lookupAll]
  | cons id ids ih =>
    cases hid : f.lookup id with
    | error e' =>
      obtain ⟨hunknown, rfl⟩ := lookup_eq_error_iff.mp hid
      rw [lookupAll, hid, List.find?_cons_of_pos (by simpa using hunknown)]
      simp [eq_comm]
    | ok i =>
      have hknown : f.knows id = true := by
        rw [knows, lookup_eq_ok_iff.mp hid]
        rfl
      rw [lookupAll, hid, List.find?_cons_of_neg (by simpa using hknown), ← ih]
      cases f.lookupAll ids <;> simp

theorem position?_eq_none_iff {size : Nat} {i : Int} :
    position? size i = none ↔ i < -(size : Int) ∨ (size : Int) ≤ i := by
  unfold position?
  split
  · split <;> simp <;> omega
  · split <;> simp <;> omega

theorem lt_of_position? {size n : Nat} {i : Int} (h : position? size i = some n) : n < size := by
  unfold position? at h
  split at h
  · split at h
    · cases h; omega
    · cases h
  · split at h
    · cases h; omega
    · cases h

/-- A target does not resolve exactly for these reasons. -/
theorem resolve_eq_error_iff {target : Target} {e : FleetError} :
    f.resolve target = .error e ↔ Unresolved f target e := by
  cases target with
  | all => exact iff_of_false (fun h => by cases h) fun h => by cases h
  | matching p => exact iff_of_false (fun h => by cases h) fun h => by cases h
  | id id =>
    have hmap : f.resolve (.id id) = .error e ↔ f.lookup id = .error e := by
      rw [resolve]
      cases f.lookup id <;> simp [Except.map]
    rw [hmap, lookup_eq_error_iff]
    constructor
    · rintro ⟨h, rfl⟩
      exact .id h
    · intro h
      cases h with
      | id h => exact ⟨h, rfl⟩
  | index i =>
    rw [resolve]
    cases hposition : position? f.size i with
    | none =>
      have hout := position?_eq_none_iff.mp hposition
      refine ⟨fun h => ?_, fun h => by cases h; rfl⟩
      cases h
      exact .index hout
    | some n =>
      have hlt : n < f.instances.length := lt_of_position? hposition
      refine iff_of_false (by simp [List.getElem?_eq_getElem hlt]) fun h => ?_
      cases h with
      | index h => simp [position?_eq_none_iff.mpr h] at hposition
  | ids ids =>
    rw [resolve, lookupAll_eq_error_iff]
    simp only [find?_firstMentions]
    constructor
    · rintro ⟨id, h, rfl⟩
      exact .ids h
    · intro h
      cases h with
      | ids h => exact ⟨_, h, rfl⟩
  | subset sub =>
    rw [resolve, lookupAll_eq_error_iff]
    constructor
    · rintro ⟨id, h, rfl⟩
      exact .subset h
    · intro h
      cases h with
      | subset h => exact ⟨_, h, rfl⟩

theorem Unresolved.misplaced_eq {target : Target} {e : FleetError} (h : Unresolved f target e) :
    e.misplaced = false := by
  cases h <;> rfl

end Resolution

/-! ## Errors of the later parts -/

/-- The errors that are not of the check of states. -/
def Placed (e : FleetError) : Prop := e.misplaced = false

section Raising

variable {P : FleetError → Prop}

theorem raises_transitionGroups (kind : Transition) (dryRun : Bool) (groups : List Group) :
    Raises P (transitionGroups kind dryRun groups) := by
  induction groups with
  | nil => exact .pure []
  | cons group groups ih =>
    refine (Raises.request _).bind fun _ => ?_
    have hcall : Raises P (Cloud.transition kind group.1 group.2 dryRun : FleetProgram _) :=
      (Raises.request _).bind fun _ => .pure _
    refine hcall.bind fun answer => ?_
    cases answer with
    | ok done =>
      dsimp only
      split
      · exact ih
      · exact (Raises.each group.2 fun id => .remember _).bind fun _ => ih
    | error e => exact (Raises.request _).bind fun _ => ih.bind fun _ => .pure _

theorem raises_settle (h : ∀ failures, P (.provider failures)) (failures : List Failure) :
    Raises P (settle failures) := by
  unfold settle
  split
  · exact .pure ()
  · exact .raise (h failures)

theorem raises_transition (h : ∀ failures, P (.provider failures)) (kind : Transition) (targets : Subset)
    (dryRun : Bool) : Raises P (transition kind targets dryRun) :=
  (raises_transitionGroups kind dryRun _).bind (raises_settle h)

theorem raises_probeRunning (c : FleetConfig) (groups : List Group) :
    Raises P (probeRunning c groups : FleetProgram Unit) := by
  have hprobe (address : String) : Raises P (probe c address : FleetProgram Bool) := by
    refine (Raises.request _).bind fun connection => ?_
    dsimp only
    split
    · exact (Raises.request _).bind fun _ => .pure _
    · exact .pure _
  refine Raises.memory.bind fun fleet => ?_
  refine (Raises.collect (fleet.candidates groups) fun candidate => hprobe candidate.2).bind fun results => ?_
  refine .each _ fun result => ?_
  split
  · exact .remember _
  · exact .pure ()

theorem readStates_placed {found : List (InstanceRecord × Option StatusRecord)} {e : FleetError}
    (h : readStates found = .error e) : Placed e := by
  induction found with
  | nil => cases h
  | cons x found ih =>
    rw [readStates] at h
    split at h
    · cases h; rfl
    · split at h
      · rename_i heq
        cases h
        exact ih heq
      · cases h

theorem raises_describeGroups (groups : List Group) : Raises Placed (describeGroups groups) := by
  induction groups with
  | nil => exact .pure _
  | cons group groups ih =>
    have hdescribe : Raises Placed (Cloud.describe group.1 group.2 : FleetProgram _) := by
      refine (Raises.request _).bind fun answer => ?_
      cases answer with
      | error e => exact .pure _
      | ok records =>
        refine (Raises.request _).bind fun answer => ?_
        cases answer <;> exact .pure _
    refine hdescribe.bind fun answer => ?_
    cases answer with
    | error e => exact (Raises.request _).bind fun _ => ih.bind fun _ => .pure _
    | ok described =>
      refine (Raises.ofExcept fun e he => readStates_placed he).bind fun observations => ?_
      refine (Raises.each _ fun o => ?_).bind fun _ => ih.bind fun _ => .pure _
      refine Raises.memory.bind fun fleet => ?_
      dsimp only
      split
      · exact .remember _
      · exact (Raises.request _).bind fun _ => (Raises.remember _).bind fun _ => .remember _

/-- A target without groups does not resolve. -/
theorem resolve_of_groupsOf {c : FleetConfig} {f : Fleet} {target : Target} {e : FleetError}
    (h : groupsOf c f target = .error e) : f.resolve target = .error e := by
  unfold groupsOf at h
  split at h
  · cases h
  · cases hresolve : f.resolve target with
    | ok is =>
      rw [hresolve] at h
      cases h
    | error e' =>
      rw [hresolve] at h
      cases h
      rfl

theorem groupsOf_placed {c : FleetConfig} {f : Fleet} {target : Target} {e : FleetError}
    (h : groupsOf c f target = .error e) : Placed e :=
  (resolve_eq_error_iff.mp (resolve_of_groupsOf h)).misplaced_eq

theorem raises_refresh (c : FleetConfig) (target : Target) : Raises Placed (refresh c target) := by
  refine Raises.memory.bind fun fleet => (Raises.ofExcept fun e he => groupsOf_placed he).bind fun groups => ?_
  refine (raises_describeGroups groups).bind fun _ => (raises_probeRunning c groups).bind fun _ => ?_
  exact (Raises.request _).bind fun _ => raises_settle (fun _ => rfl) _

theorem raises_pollUntil (c : FleetConfig) (patience : Nat) (scope : Target) (limit : Option Duration)
    (done : Fleet → Bool) : Raises Placed (pollUntil c patience scope limit done) := by
  have hdeadline (start : Duration) : Raises Placed (checkDeadline limit start) := by
    unfold checkDeadline
    split
    · exact .pure ()
    · refine (Raises.request _).bind fun now => ?_
      split
      · exact .raise rfl
      · exact .pure ()
  refine (Raises.request _).bind fun start => ?_
  generalize 0 = polls
  induction patience generalizing polls with
  | zero =>
    refine Raises.memory.bind fun fleet => ?_
    split
    · exact (Raises.request _).bind fun _ => .pure _
    · exact (hdeadline start).bind fun _ => .stall
  | succ patience ih =>
    refine Raises.memory.bind fun fleet => ?_
    split
    · exact (Raises.request _).bind fun _ => .pure _
    · refine (hdeadline start).bind fun _ => (Raises.request _).bind fun _ => ?_
      exact (raises_refresh c scope).bind fun _ => (Raises.request _).bind fun _ => ih _

theorem raises_arriving (c : FleetConfig) (patience : Nat) (kind : Transition) (dryRun : Bool) (targets : Subset) :
    Raises Placed (arriving c patience kind dryRun targets) := by
  have hreread : Raises Placed (reread targets) := by
    refine Raises.memory.bind fun fleet => .ofExcept fun e he => ?_
    exact (resolve_eq_error_iff.mp he).misplaced_eq
  unfold arriving
  split
  · exact hreread
  · exact (raises_pollUntil c patience _ _ _).bind fun _ => hreread

end Raising

/-! ## The check, and what follows -/

/-- The check fails for the first target that is not in the state required. -/
theorem run_requireFor_of_first (w : World σ) {kind : Transition} {expected : InstanceState}
    (hkind : kind.required? = some expected) {before after : Subset} {i : Instance}
    (hbefore : ∀ j ∈ before, j.state = expected) (hi : i.state ≠ expected) (s : Run Fleet σ) :
    (requireFor kind (before ++ i :: after)).run w s = (.failed (.invalidState i.id i.state expected), s) := by
  have hfirst : ((before ++ i :: after).find? fun j => j.state != expected) = some i :=
    List.find?_eq_some_iff_append.mpr ⟨by simpa using hi, before, after, rfl, fun j hj => by simp [hbefore j hj]⟩
  simp only [requireFor, hkind, requireState, hfirst]
  rfl

/-- Targets that are known can always be read again, so nothing that follows their transition finds one missing. -/
theorem transition_arriving_ensures (w : World σ) (c : FleetConfig) (patience : Nat) (kind : Transition)
    (dryRun : Bool) {targets : Subset} {s : Run Fleet σ} (hs : Knows targets.ids s) :
    Ensures w (transition kind targets dryRun >>= fun _ => arriving c patience kind dryRun targets) s
      (fun _ _ => True) fun e _ => e.missing = false := by
  have hsend := ((raises_transition (P := fun e => e.missing = false) (fun _ => rfl) kind targets dryRun).ensures
    (w := w) s).keeping ((stable_knows w targets.ids).transition kind targets dryRun) hs
  refine hsend.bind fun _ u ⟨_, hu⟩ => ?_
  unfold arriving
  split
  · have hall : u.own.allOf targets.ids (fun _ => true) = true :=
      List.all_eq_true.mpr fun id hid => by simpa [knows] using hu id hid
    exact (reread_ensures w hu hall).mono (fun _ _ _ => trivial) fun _ _ h => h.elim
  · exact (await_reread_ensures w c patience hu).mono (fun _ _ _ => trivial) fun _ _ h => h

/-- Whatever the registry, the target and the answers: a target that does not resolve, or the first of its instances
that is not in the state required, is the error, and the run stays what it was. Otherwise no such error comes. -/
theorem preconditions_come_first (w : World σ) (c : FleetConfig) (patience : Nat) {kind : Transition}
    {expected : InstanceState} (hkind : kind.required? = some expected) (target : Option Target) (dryRun : Bool)
    (s : Run Fleet σ) :
    (∀ named e, target = some named → Unresolved s.own named e →
      (transiting c patience kind target dryRun).run w s = (.failed e, s))
    ∧ (∀ before i after, s.own.chosen target kind.default = .ok (before ++ i :: after) →
      (∀ j ∈ before, j.state = expected) → i.state ≠ expected →
      (transiting c patience kind target dryRun).run w s = (.failed (.invalidState i.id i.state expected), s))
    ∧ ∀ targets, s.own.chosen target kind.default = .ok targets → (∀ i ∈ targets, i.state = expected) →
      ∀ e t, (transiting c patience kind target dryRun).run w s = (.failed e, t) →
        e.missing = false ∧ e.misplaced = false := by
  have hresolved := run_targetsOr w target kind.default s
  refine ⟨fun named e htarget hunresolved => ?_, fun before i after hchosen hbefore hi => ?_,
    fun targets hchosen hstate e t hrun => ?_⟩
  · subst htarget
    have hchosen : s.own.chosen (some named) kind.default = .error e := resolve_eq_error_iff.mpr hunresolved
    rw [hchosen] at hresolved
    rw [transiting_eq]
    exact Program.run_andThen_of_failed hresolved _
  · rw [hchosen] at hresolved
    rw [transiting_eq, Program.run_andThen_of_returned hresolved]
    exact Program.run_andThen_of_failed (run_requireFor_of_first w hkind hbefore hi s) _
  · rw [hchosen] at hresolved
    have hrequired : ∀ required, kind.required? = some required → ∀ i ∈ targets, i.state = required := by
      intro required hrequired
      rw [hkind] at hrequired
      cases hrequired
      exact hstate
    have hpassed := run_requireFor w hrequired s
    rw [transiting_eq, Program.run_andThen_of_returned hresolved, Program.run_andThen_of_returned hpassed] at hrun
    have hknown := knows_of_mem (t := s) (mem_of_chosen hchosen (mem_of_mem_default kind s.own))
    refine ⟨(transition_arriving_ensures w c patience kind dryRun hknown).of_failed hrun, ?_⟩
    exact ((raises_transition (fun _ => rfl) kind targets dryRun).bind fun _ =>
      raises_arriving c patience kind dryRun targets).of_failed hrun

/-- An identifier that is not known keeps all others from being started, as does one instance that runs already, in
whatever region they are. Where only those are named that have stopped, it is a region that fails. -/
theorem preconditions_come_first_half_stopped :
    (transiting {} 1 .start (some (.ids ["i-1", "i-9"])) false).run stubbornCloud halfStopped.toRun
        = (.failed (.notFound "id i-9"), halfStopped.toRun)
      ∧ (transiting {} 1 .start (some .all) false).run stubbornCloud halfStopped.toRun
        = (.failed (.invalidState "i-3" .running .stopped), halfStopped.toRun)
      ∧ ∃ e t, (transiting {} 1 .start (some (.ids ["i-2", "i-1"])) false).run stubbornCloud halfStopped.toRun
          = (.failed e, t)
        ∧ e.missing = false ∧ e.misplaced = false := by
  have hfirst : (["i-1", "i-9"].find? fun id => !halfStopped.own.knows id) = some "i-9" := by decide
  have hstart : Transition.start.required? = some .stopped := rfl
  obtain ⟨hunresolved, -, -⟩ := preconditions_come_first stubbornCloud {} 1 hstart (some (.ids ["i-1", "i-9"])) false
    halfStopped.toRun
  obtain ⟨-, hmisplaced, -⟩ := preconditions_come_first stubbornCloud {} 1 hstart (some .all) false halfStopped.toRun
  obtain ⟨-, -, hpassed⟩ := preconditions_come_first stubbornCloud {} 1 hstart (some (.ids ["i-2", "i-1"])) false
    halfStopped.toRun
  refine ⟨hunresolved _ _ rfl (.ids hfirst), ?_, _, _, rfl, hpassed stoppedPair rfl (fun i hi => ?_) _ _ rfl⟩
  · refine hmisplaced [.new "i-1" ⟨"eu-west-3"⟩ .stopped, .new "i-2" ⟨"us-east-1"⟩ .stopped]
      (.new "i-3" ⟨"eu-west-3"⟩ .running) [] rfl (fun j hj => ?_) (by decide)
    rcases List.mem_pair.mp hj with rfl | rfl <;> rfl
  · rcases List.mem_pair.mp hi with rfl | rfl <;> rfl

end Fleet

end CloudFleet
