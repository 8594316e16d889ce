import CloudFleet.Fleet.Create
import CloudFleet.Fleet.Lifecycle
import CloudFleet.Fleet.NodeList
import CloudFleet.Fleet.SecurityGroup
import CloudFleet.Fleet.Status
import CloudFleet.Proofs.World.ProgramLogic

/-!
# Operations on a fleet, and runs of many of them

An `Operation` is anything that can be asked of a fleet, with its arguments; `Fleet.runAll` performs operations one
after the other in any world, however each of them ends.

All operations are built from few things that touch what is remembered: describing instances and taking over what was
observed, probing, moving instances, and noting an image. A property of runs that all but moving instances keeps, and
every other request too, is `Fleet.Observant`; one that moving instances keeps as well is `Fleet.Stable`. A request that
asks for consent or launches instances is made by `Fleet.create` alone, and stands apart. Every operation keeps a stable
property that such requests keep too (`Stable.perform`), and so does every run (`Stable.runAll`).
-/

set_option autoImplicit false

namespace CloudFleet

variable {σ ε : Type}

/-- The instance that a request announces as seen for the first time. -/
def Request.discovery? : Request → Option (InstanceId × Region)
  | .announce (.discovered id region) => some (id, region)
  | _ => none

/-- Whether a request asks for consent, or launches instances. -/
def Request.commits : Request → Bool
  | .confirm _ => true
  | .cloud (.launch ..) => true
  | _ => false

theorem Request.discovery?_of_commits {r : Request} (h : r.commits = true) : r.discovery? = none := by
  cases r <;> first | rfl | cases h

/-- Whether a request calls a region to move instances. -/
def Request.moves : Request → Bool
  | .cloud (.transition ..) => true
  | _ => false

/-- Whether a request calls the control plane. -/
def Request.calls : Request → Bool
  | .cloud _ => true
  | _ => false

theorem Request.moves_of_not_calls {r : Request} (h : r.calls = false) : r.moves = false := by
  cases r <;> first | rfl | cases h

namespace Fleet

/-! ## Calls to move -/

/-- The calls to move instances, with their answers. -/
def orders (h : List (Happening Fleet)) : List ((r : Request) × r.Reply) := (questions h).filter fun x => x.1.moves

theorem orders_append (h k : List (Happening Fleet)) : orders (h ++ k) = orders h ++ orders k := by
  simp [orders, questions_append]

theorem orders_asked {r : Request} (hr : r.moves = false) (reply : r.Reply) : orders [.asked r reply] = [] := by
  cases ht : r.tells with
  | true => simp [orders, questions_told ht]
  | false => simp [orders, questions_asked ht, hr]

/-! ## Operations -/

/-- Something asked of a fleet. -/
inductive Operation
  | refresh (target : Target)
  | pollUntil (scope : Target) (limit : Option Duration) (done : Fleet → Bool)
  | start (target : Option Target) (dryRun : Bool)
  | stop (target : Option Target) (dryRun : Bool)
  | reboot (target : Option Target) (dryRun : Bool)
  | terminate (target : Option Target) (dryRun : Bool)
  | waitForStartup (target : Option Target)
  | create (plan : Plan) (dryRun : Bool)
  | status
  | writeNodeList (path : Path) (port : UInt16)
  | rebuildGroups

/-- Whether the operation moves instances. -/
def Operation.moves : Operation → Bool
  | start .. | stop .. | reboot .. | terminate .. => true
  | _ => false

/-- The program without what it returns. -/
def discarding {α : Type} (p : FleetProgram α) : FleetProgram Unit := do
  let _ ← p
  pure ()

/-- The program of an operation, for a caller of some patience. -/
def Operation.perform (c : FleetConfig) (patience : Nat) : Operation → FleetProgram Unit
  | .refresh target => Fleet.refresh c target
  | .pollUntil scope limit done => discarding (Fleet.pollUntil c patience scope limit done)
  | .start target dryRun => discarding (Fleet.start c patience target dryRun)
  | .stop target dryRun => discarding (Fleet.stop c patience target dryRun)
  | .reboot target dryRun => discarding (Fleet.reboot c patience target dryRun)
  | .terminate target dryRun => discarding (Fleet.terminate c patience target dryRun)
  | .waitForStartup target => discarding (Fleet.waitForStartup c patience target)
  | .create plan dryRun => discarding (Fleet.create c patience plan dryRun)
  | .status => discarding (Fleet.status c)
  | .writeNodeList path port => do
    let fleet ← Program.memory
    discarding (fleet.writeNodeList path port)
  | .rebuildGroups => Fleet.rebuildGroups c

/-- The run after one operation, with the patience of its caller. -/
def runOne (w : World σ) (c : FleetConfig) (s : Run Fleet σ) (o : Nat × Operation) : Run Fleet σ :=
  ((o.2.perform c o.1).run w s).2

/-- The run after operations one after the other, each with the patience of its caller. -/
def runAll (w : World σ) (c : FleetConfig) (s : Run Fleet σ) (os : List (Nat × Operation)) : Run Fleet σ :=
  os.foldl (runOne w c) s

/-- A run in which nothing happened yet. -/
def fresh (world : σ) : Run Fleet σ := ⟨{}, world, []⟩

theorem runAll_append (w : World σ) (c : FleetConfig) (s : Run Fleet σ) (os ps : List (Nat × Operation)) :
    runAll w c s (os ++ ps) = runAll w c (runAll w c s os) ps := List.foldl_append

/-- Operations add to the history, and a fleet remembers what they add. -/
theorem history_runAll (w : World σ) (c : FleetConfig) (os : List (Nat × Operation)) (s : Run Fleet σ) :
    ∃ new, (runAll w c s os).history = s.history ++ new ∧ (runAll w c s os).own = replay s.own new := by
  induction os generalizing s with
  | nil => exact ⟨[], by simp [runAll], rfl⟩
  | cons o os ih =>
    obtain ⟨first, hh, ho⟩ := Program.run_history w (o.2.perform c o.1) s
    obtain ⟨later, hh', ho'⟩ := ih (runOne w c s o)
    refine ⟨first ++ later, ?_, ?_⟩
    · rw [← List.append_assoc, ← hh]
      exact hh'
    · rw [replay_append, ← ho]
      exact ho'

/-! ## Properties that every operation keeps -/

/-- Looking up the images of the other regions, after what was found for the first one. -/
def findOthers (owner namePattern : String) (first : Region × Option String) (regions : List Region) :
    Program Fleet ε (Cloud.Answer (List (Region × Option String))) := do
  match ← findImages owner namePattern regions with
  | .error e => pure (.error e)
  | .ok rest => pure (.ok (first :: rest))

/-- What follows the launches: unless it was a dry run, the new instances are awaited and read. -/
def awaitLaunched (c : FleetConfig) (patience : Nat) (dryRun : Bool) (failures : List Failure)
    (ids : List InstanceId) : FleetProgram Launch := do
  settle failures
  if dryRun then pure (.launched [])
  else
    refresh c .all
    let fleet ← Program.memory
    let targets ← Program.ofExcept (fleet.resolve (.ids ids))
    let _ ← awaitReachable c patience targets
    let fleet ← Program.memory
    let launched ← Program.ofExcept (fleet.resolve (.subset targets))
    pure (.launched launched)

/-- Bringing the node list up to date keeps what local files and its announcement keep. -/
theorem keeps_writeNodeList {τ : Type} [Memory τ] {w : World σ} {I : Run τ σ → Prop}
    (hfile : ∀ s call, I s → I (s.ask w (.file call)))
    (hwritten : ∀ s path hosts, I s → I (s.ask w (.announce (.nodeListWritten path hosts)))) (f : Fleet) (path : Path)
    (port : UInt16) : Program.Keeps w I (f.writeNodeList path port : Program τ FleetError Bool) := by
  refine (Program.Keeps.request fun s => hfile s _).bind fun current => ?_
  -- whether the file was read, is missing or cannot be read, what follows is the same
  rcases current with e | current <;> dsimp only
  case' error => split
  all_goals
    refine (Program.Keeps.finish _).bind fun current => ?_
    split
    · exact Program.Keeps.pure _
    · refine (Program.Keeps.request fun s => hfile s _).bind fun written => ?_
      cases written with
      | error e => exact Program.Keeps.raise _
      | ok _ => exact (Program.Keeps.request fun s => hwritten s _ _).bind fun _ => Program.Keeps.pure _

/-- A property of runs that is kept by everything that operations are made of, but for moving instances, consent and
launches. -/
structure Observant (w : World σ) (I : Run Fleet σ → Prop) : Prop where
  /-- By every other request but the announcement of an instance, -/
  requested : ∀ s r, r.discovery? = none → r.commits = false → r.moves = false → I s → I (s.ask w r)
  /-- by describing instances and taking over what was observed of them, -/
  described : ∀ groups, Program.Keeps w I (describeGroups groups)
  /-- by probing, -/
  probed : ∀ c groups, Program.Keeps w I (probeRunning c groups : FleetProgram Unit)
  /-- and by an image being found. -/
  imaged : ∀ s region image, I s → I (s.change (Change.imageFound region image))

open Program (Keeps)

/-! ## Parts that touch nothing -/

section Untouched

variable {w : World σ} {I : Run Fleet σ → Prop}

theorem keeps_settle (failures : List Failure) : Keeps w I (Fleet.settle failures) := by
  unfold Fleet.settle
  split
  · exact Keeps.pure _
  · exact Keeps.raise _

theorem keeps_targetsOr (target : Option Target) (default : Fleet → Subset) :
    Keeps w I (Fleet.targetsOr target default) := by
  refine Keeps.memory.bind fun fleet => ?_
  cases target with
  | none => exact Keeps.pure _
  | some target => exact Keeps.ofExcept _

theorem keeps_requireState (expected : InstanceState) (targets : Subset) :
    Keeps w I (Fleet.requireState expected targets) := by
  unfold Fleet.requireState
  split
  · exact Keeps.raise _
  · exact Keeps.pure _

theorem keeps_reread (targets : Subset) : Keeps w I (Fleet.reread targets) :=
  Keeps.memory.bind fun _ => Keeps.ofExcept _

end Untouched

/-! ## Waiting -/

section Waiting

variable {w : World σ} {I : Run Fleet σ → Prop}
  (hasked : ∀ s r, r.discovery? = none → r.commits = false → r.calls = false → I s → I (s.ask w r))
include hasked

theorem keeps_checkDeadline (limit : Option Duration) (start : Duration) :
    Keeps w I (Fleet.checkDeadline limit start) := by
  cases limit with
  | none => exact Keeps.pure _
  | some limit =>
    refine (Keeps.request fun s => hasked s _ rfl rfl rfl).bind fun now => ?_
    split
    · exact Keeps.raise _
    · exact Keeps.pure _

/-- Waiting keeps what its refreshes keep, if requests keep it that neither announce an instance nor ask for consent nor
call the control plane. -/
theorem keeps_pollFrom {c : FleetConfig} {scope : Target} (hrefresh : Keeps w I (Fleet.refresh c scope))
    (limit : Option Duration) (done : Fleet → Bool) (start : Duration) (patience polls : Nat) :
    Keeps w I (Fleet.pollFrom c scope limit done start patience polls) := by
  have hask : ∀ r : Request, r.discovery? = none → r.commits = false → r.calls = false →
      Keeps w I (.request r : FleetProgram r.Reply) := fun r hr hc hn => Keeps.request fun s => hasked s r hr hc hn
  -- patience is how many polls the caller lives to see; without any left, the wait stalls
  induction patience generalizing polls with
  | zero =>
    refine Keeps.memory.bind fun fleet => ?_
    split
    · exact (hask _ rfl rfl rfl).bind fun _ => Keeps.pure _
    · exact (keeps_checkDeadline hasked limit start).bind fun _ => Keeps.stall
  | succ patience ih =>
    refine Keeps.memory.bind fun fleet => ?_
    split
    · exact (hask _ rfl rfl rfl).bind fun _ => Keeps.pure _
    · refine (keeps_checkDeadline hasked limit start).bind fun _ => (hask _ rfl rfl rfl).bind fun _ => ?_
      exact hrefresh.bind fun _ => (hask _ rfl rfl rfl).bind fun _ => ih _

theorem keeps_pollUntil {c : FleetConfig} {scope : Target} (hrefresh : Keeps w I (Fleet.refresh c scope))
    (patience : Nat) (limit : Option Duration) (done : Fleet → Bool) :
    Keeps w I (Fleet.pollUntil c patience scope limit done) :=
  (Keeps.request fun s => hasked s _ rfl rfl rfl).bind fun start =>
    keeps_pollFrom hasked hrefresh limit done start patience 0

end Waiting

namespace Observant

variable {w : World σ} {I : Run Fleet σ → Prop} (h : Observant w I)
include h

theorem request {r : Request} (hr : r.discovery? = none) (hc : r.commits = false) (hm : r.moves = false) :
    Keeps w I (.request r : Program Fleet ε r.Reply) := Keeps.request fun s => h.requested s r hr hc hm

theorem log (level : Level) (text : String) : Keeps w I (.log level text : Program Fleet ε Unit) :=
  h.request rfl rfl rfl

theorem call {c : CloudCall} (hc : (Request.cloud c).commits = false) (hm : (Request.cloud c).moves = false) :
    Keeps w I (Cloud.call c : Program Fleet ε _) := h.request rfl hc hm

/-! ## Refreshing and waiting -/

theorem refresh (c : FleetConfig) (target : Target) : Keeps w I (Fleet.refresh c target) := by
  refine Keeps.memory.bind fun fleet => (Keeps.ofExcept _).bind fun groups => ?_
  refine (h.described groups).bind fun seen => (h.probed c groups).bind fun _ => ?_
  exact (h.request rfl rfl rfl).bind fun _ => keeps_settle _

/-- What is asked while waiting. -/
theorem uncalled (s : Run Fleet σ) (r : Request) (hr : r.discovery? = none) (hc : r.commits = false)
    (hn : r.calls = false) (hs : I s) : I (s.ask w r) := h.requested s r hr hc (Request.moves_of_not_calls hn) hs

theorem checkDeadline (limit : Option Duration) (start : Duration) : Keeps w I (Fleet.checkDeadline limit start) :=
  keeps_checkDeadline h.uncalled limit start

theorem pollUntil (c : FleetConfig) (patience : Nat) (scope : Target) (limit : Option Duration)
    (done : Fleet → Bool) : Keeps w I (Fleet.pollUntil c patience scope limit done) :=
  keeps_pollUntil h.uncalled (h.refresh c scope) patience limit done

theorem waitForStartup (c : FleetConfig) (patience : Nat) (target : Option Target) :
    Keeps w I (Fleet.waitForStartup c patience target) :=
  (keeps_targetsOr target _).bind fun targets => (h.pollUntil c patience _ _ _).bind fun _ => keeps_reread targets

/-! ## Creating instances -/

theorem findImages (owner namePattern : String) (regions : List Region) :
    Keeps w I (Fleet.findImages owner namePattern regions : Program Fleet ε _) := by
  induction regions with
  | nil => exact Keeps.pure _
  | cons region regions ih =>
    refine Keeps.memory.bind fun fleet => ?_
    split
    · exact ih
    · refine (h.call rfl rfl).bind fun images => ?_
      cases images with
      | error e => exact Keeps.pure _
      | ok images =>
        have hrest : Keeps w I
            (findOthers owner namePattern (region, (Cloud.latest? images).map ImageRecord.id) regions :
              Program Fleet ε _) := ih.bind fun rest => by cases rest <;> exact Keeps.pure _
        refine (h.log _ _).bind fun _ => ?_
        split
        · exact (Keeps.remember fun s => h.imaged s _ _).bind fun _ => hrest
        · exact hrest

theorem announceImages (found : List (Region × Option String)) : Keeps w I (Fleet.announceImages found) := by
  induction found with
  | nil => exact Keeps.pure _
  | cons entry found ih =>
    obtain ⟨region, image⟩ := entry
    cases image with
    | none => exact Keeps.raise _
    | some image => exact (h.request rfl rfl rfl).bind fun _ => ih

theorem selectImages (c : FleetConfig) (regions : List Region) : Keeps w I (Fleet.selectImages c regions) := by
  induction regions with
  | nil => exact Keeps.pure _
  | cons region regions ih =>
    refine (h.findImages _ _ _).bind fun found => ?_
    cases found with
    | ok found => exact (h.announceImages found).bind fun _ => ih
    | error e => exact ih.bind fun _ => Keeps.pure _

theorem bootstrap (c : FleetConfig) : Keeps w I (Fleet.bootstrap c) := by
  unfold Fleet.bootstrap
  split
  · exact Keeps.pure _
  · refine (h.request rfl rfl rfl).bind fun text => ?_
    cases text with
    | ok text => exact Keeps.pure _
    | error e => exact Keeps.raise _

/-- What follows the launches neither asks for consent nor launches. -/
theorem awaitLaunched (c : FleetConfig) (patience : Nat) (dryRun : Bool) (failures : List Failure)
    (ids : List InstanceId) : Keeps w I (Fleet.awaitLaunched c patience dryRun failures ids) := by
  refine (keeps_settle _).bind fun _ => ?_
  split
  · exact Keeps.pure _
  · refine (h.refresh c _).bind fun _ => Keeps.memory.bind fun fleet => (Keeps.ofExcept _).bind fun targets => ?_
    refine (h.pollUntil c patience _ _ _).bind fun _ => Keeps.memory.bind fun fleet => ?_
    exact (Keeps.ofExcept _).bind fun _ => Keeps.pure _

/-! ## The surroundings of a fleet -/

theorem writeNodeList (f : Fleet) (path : Path) (port : UInt16) :
    Keeps w I (f.writeNodeList path port : FleetProgram Bool) :=
  keeps_writeNodeList (fun s call => h.requested s (.file call) rfl rfl rfl)
    (fun s _ _ => h.requested s _ rfl rfl rfl) f path port

theorem openPorts (region : Region) (name : String) (ports : List UInt16) :
    Keeps w I (Fleet.openPorts region name ports) := by
  induction ports with
  | nil => exact Keeps.pure _
  | cons port ports ih =>
    refine (h.call rfl rfl).bind fun answer => ?_
    cases answer with
    | error e => exact Keeps.pure _
    | ok _ => exact (h.request rfl rfl rfl).bind fun _ => ih

theorem deleteGroup (region : Region) (name : String) (existing : List String) :
    Keeps w I (Fleet.deleteGroup region name existing) := by
  unfold Fleet.deleteGroup
  split
  · refine (h.call rfl rfl).bind fun answer => ?_
    cases answer with
    | error e => exact Keeps.pure _
    | ok _ => exact (h.request rfl rfl rfl).bind fun _ => Keeps.pure _
  · exact Keeps.pure _

theorem rebuildGroup (c : FleetConfig) (region : Region) : Keeps w I (Fleet.rebuildGroup c region) := by
  refine (h.call rfl rfl).bind fun existing => ?_
  cases existing with
  | error e => exact Keeps.pure _
  | ok existing =>
    refine (h.deleteGroup region _ existing).bind fun deleted => ?_
    cases deleted with
    | error e => exact Keeps.pure _
    | ok _ =>
      refine (h.call rfl rfl).bind fun created => ?_
      cases created with
      | error e => exact Keeps.pure _
      | ok _ => exact (h.request rfl rfl rfl).bind fun _ => h.openPorts region _ _

theorem rebuildGroupsOf (c : FleetConfig) (regions : List Region) : Keeps w I (Fleet.rebuildGroupsOf c regions) := by
  induction regions with
  | nil => exact Keeps.pure _
  | cons region regions ih =>
    refine (h.rebuildGroup c region).bind fun answer => ?_
    cases answer with
    | ok _ => exact ih
    | error e => exact (h.log _ _).bind fun _ => ih.bind fun _ => Keeps.pure _

/-- Nothing of a creation but asking for consent and launching needs more. -/
theorem create (hconfirm : ∀ s question, I s → I (s.ask w (.confirm question)))
    (hlaunch : ∀ c userData dryRun groups, Keeps w I (Fleet.launchGroups c userData dryRun groups)) (c : FleetConfig)
    (patience : Nat) (plan : Plan) (dryRun : Bool) : Keeps w I (Fleet.create c patience plan dryRun) := by
  refine (h.selectImages c _).bind fun failures => (keeps_settle _).bind fun _ => Keeps.memory.bind fun fleet => ?_
  dsimp only
  split
  · exact Keeps.crash
  · refine (h.request rfl rfl rfl).bind fun _ => ?_
    split
    · exact Keeps.pure _
    · refine (h.bootstrap c).bind fun userData => (Keeps.request fun s => hconfirm s _).bind fun consent => ?_
      split
      · exact (hlaunch c userData dryRun _).bind fun launched => h.awaitLaunched c patience dryRun _ _
      · exact (h.request rfl rfl rfl).bind fun _ => Keeps.pure _

/-- An operation that moves no instances keeps what consent and launches keep. -/
theorem perform (hconfirm : ∀ s question, I s → I (s.ask w (.confirm question)))
    (hlaunch : ∀ c userData dryRun groups, Keeps w I (Fleet.launchGroups c userData dryRun groups)) (c : FleetConfig)
    (patience : Nat) {o : Operation} (ho : o.moves = false) : Keeps w I (o.perform c patience) := by
  cases o with
  | refresh target => exact h.refresh c target
  | pollUntil scope limit done => exact (h.pollUntil c patience scope limit done).bind fun _ => Keeps.pure _
  | start | stop | reboot | terminate => cases ho
  | waitForStartup target => exact (h.waitForStartup c patience target).bind fun _ => Keeps.pure _
  | create plan dryRun => exact (h.create hconfirm hlaunch c patience plan dryRun).bind fun _ => Keeps.pure _
  | status =>
    have hstatus : Keeps w I (Fleet.status c) :=
      (h.refresh c .all).bind fun _ => Keeps.memory.bind fun _ => Keeps.pure _
    exact hstatus.bind fun _ => Keeps.pure _
  | writeNodeList path port =>
    exact Keeps.memory.bind fun fleet => (h.writeNodeList fleet path port).bind fun _ => Keeps.pure _
  | rebuildGroups => exact (h.rebuildGroupsOf c c.regions).bind fun _ => keeps_settle _

end Observant

/-! ## Properties that moving instances keeps as well -/

/-- Without a dry run an answer is what it is. -/
theorem forgive_false {α : Type} (default : α) (answer : Except CloudError α) :
    CloudError.forgive false default answer = answer := by
  cases answer with
  | ok a => rfl
  | error e => cases e <;> rfl

section Steps

variable {w : World σ} {I : Run Fleet σ → Prop}

/-- Describing keeps what its requests keep, and what taking over an observation keeps. -/
theorem keeps_describeGroups
    (hasked : ∀ s r, r.discovery? = none → r.commits = false → r.moves = false → I s → I (s.ask w r))
    (hobserved : ∀ region o, Keeps w I (observe region o : FleetProgram Unit)) (groups : List Group) :
    Keeps w I (Fleet.describeGroups groups) := by
  have hask : ∀ (r : Request), r.discovery? = none → r.commits = false → r.moves = false →
      Keeps w I (.request r : FleetProgram r.Reply) := fun r hr hc hm => Keeps.request fun s => hasked s r hr hc hm
  induction groups with
  | nil => exact Keeps.pure _
  | cons group groups ih =>
    have hdescribe : Keeps w I (Cloud.describe group.1 group.2 : FleetProgram _) := by
      refine (hask _ rfl rfl rfl).bind fun records => ?_
      cases records with
      | error e => exact Keeps.pure _
      | ok records =>
        refine (hask _ rfl rfl rfl).bind fun statuses => ?_
        cases statuses <;> exact Keeps.pure _
    refine hdescribe.bind fun described => ?_
    cases described with
    | error e => exact (hask _ rfl rfl rfl).bind fun _ => ih.bind fun _ => Keeps.pure _
    | ok described =>
      refine (Keeps.ofExcept _).bind fun observations => ?_
      refine (Keeps.each observations fun o _ => hobserved _ o).bind fun _ => ?_
      exact ih.bind fun _ => Keeps.pure _

/-- Moving instances keeps what its requests keep, and what the changes after the call of a region that agreed keep. -/
theorem keeps_transitionGroups {kind : Transition} {dryRun : Bool} {groups : List Group}
    (hasked : ∀ s r, r.discovery? = none → r.commits = false → I s → I (s.ask w r))
    (hmoved : dryRun = false → ∀ group ∈ groups, ∀ s, I s →
      s.reply w (.cloud (.transition kind group.1 group.2 false)) = .ok () →
      I ((Program.each (fun id => .remember (Change.entered id kind.underWay)) group.2 : FleetProgram Unit).run w
        (s.ask w (.cloud (.transition kind group.1 group.2 false)))).2) :
    Keeps w I (Fleet.transitionGroups kind dryRun groups) := by
  induction groups with
  | nil => exact Keeps.pure _
  | cons group groups ih =>
    have hrest := ih fun hd g hg => hmoved hd g (List.mem_cons_of_mem _ hg)
    refine (Keeps.request fun s => hasked s _ rfl rfl).bind fun _ s hs => ?_
    let call := Request.cloud (.transition kind group.1 group.2 dryRun)
    have hcall : (Cloud.transition kind group.1 group.2 dryRun : FleetProgram _).run w s
        = (.returned (CloudError.forgive dryRun () (s.reply w call)), s.ask w call) := rfl
    rw [Program.run_andThen_of_returned hcall]
    have hasked' := hasked s call rfl rfl hs
    cases hanswer : CloudError.forgive dryRun () (s.reply w call) with
    | error e =>
      have hfailed : Keeps w I (do
          .warn s!"{kind.name} in {group.1.name} failed: {e.message}"
          let failures ← Fleet.transitionGroups kind dryRun groups
          pure ((group.1, e) :: failures) : FleetProgram (List Failure)) :=
        (Keeps.request fun s => hasked s _ rfl rfl).bind fun _ => hrest.bind fun _ => Keeps.pure _
      exact hfailed _ hasked'
    | ok _ =>
      dsimp only
      cases dryRun with
      | true => exact hrest _ hasked'
      | false =>
        rw [forgive_false] at hanswer
        have hchanged := hmoved rfl group List.mem_cons_self s hs hanswer
        refine Program.after_andThen hchanged fun _ t hrun => hrest t ?_
        rwa [hrun] at hchanged

end Steps

/-- A property of runs that is kept by everything that operations are made of, but for consent and launches. -/
structure Stable (w : World σ) (I : Run Fleet σ → Prop) : Prop extends Observant w I where
  /-- By every other request but the announcement of an instance, -/
  asked : ∀ s r, r.discovery? = none → r.commits = false → I s → I (s.ask w r)
  /-- by taking over what was observed of an instance, -/
  observed : ∀ region o, Program.Keeps w I (observe region o : FleetProgram Unit)
  /-- and by an instance being moved. -/
  moved : ∀ s id (kind : Transition), I s → I (s.change (Change.entered id kind.underWay))
  requested := fun s r hr hc _ => asked s r hr hc
  described := keeps_describeGroups (fun s r hr hc _ => asked s r hr hc) observed

namespace Stable

variable {w : World σ} {I : Run Fleet σ → Prop} (h : Stable w I)
include h

/-! ## The life cycle -/

theorem transitionGroups (kind : Transition) (dryRun : Bool) (groups : List Group) :
    Keeps w I (Fleet.transitionGroups kind dryRun groups) := by
  refine keeps_transitionGroups h.asked fun _ group _ s hs _ => ?_
  exact Keeps.each _ (fun id _ => Keeps.remember fun s => h.moved s id kind) _ (h.asked s _ rfl rfl hs)

theorem transition (kind : Transition) (targets : Subset) (dryRun : Bool) :
    Keeps w I (Fleet.transition kind targets dryRun) :=
  (h.transitionGroups kind dryRun _).bind fun _ => keeps_settle _

/-- Instances are moved and, unless it is a dry run, awaited before they are read again. -/
theorem moveAndAwait (kind : Transition) (targets : Subset) (dryRun : Bool) {p : FleetProgram Nat} (hp : Keeps w I p) :
    Keeps w I (do
      Fleet.transition kind targets dryRun
      if dryRun then pure () else
        let _ ← p
      Fleet.reread targets : FleetProgram Subset) := by
  refine (h.transition kind targets dryRun).bind fun _ => ?_
  split
  · exact keeps_reread targets
  · exact hp.bind fun _ => keeps_reread targets

theorem start (c : FleetConfig) (patience : Nat) (target : Option Target) (dryRun : Bool) :
    Keeps w I (Fleet.start c patience target dryRun) := by
  refine (keeps_targetsOr target _).bind fun targets => (keeps_requireState _ targets).bind fun _ => ?_
  exact h.moveAndAwait _ targets dryRun (h.pollUntil c patience _ _ _)

theorem stop (c : FleetConfig) (patience : Nat) (target : Option Target) (dryRun : Bool) :
    Keeps w I (Fleet.stop c patience target dryRun) := by
  refine (keeps_targetsOr target _).bind fun targets => (keeps_requireState _ targets).bind fun _ => ?_
  exact h.moveAndAwait _ targets dryRun (h.pollUntil c patience _ _ _)

theorem reboot (c : FleetConfig) (patience : Nat) (target : Option Target) (dryRun : Bool) :
    Keeps w I (Fleet.reboot c patience target dryRun) := by
  refine (keeps_targetsOr target _).bind fun targets => (keeps_requireState _ targets).bind fun _ => ?_
  exact h.moveAndAwait _ targets dryRun (h.pollUntil c patience _ _ _)

theorem terminate (c : FleetConfig) (patience : Nat) (target : Option Target) (dryRun : Bool) :
    Keeps w I (Fleet.terminate c patience target dryRun) :=
  (keeps_targetsOr target _).bind fun targets =>
    h.moveAndAwait _ targets dryRun (h.pollUntil c patience _ _ _)

/-! ## Launches -/

theorem register (region : Region) (records : List InstanceRecord) : Keeps w I (Fleet.register region records) := by
  induction records with
  | nil => exact Keeps.pure _
  | cons record records ih =>
    unfold Fleet.register
    split
    · exact Keeps.raise _
    · exact (h.observed _ _).bind fun _ => ih.bind fun _ => Keeps.pure _

section Committing

variable (hcommit : ∀ s r, r.commits = true → I s → I (s.ask w r))
include hcommit

theorem launchGroups (c : FleetConfig) (userData : String) (dryRun : Bool) (groups : List (Region × Nat)) :
    Keeps w I (Fleet.launchGroups c userData dryRun groups) := by
  induction groups with
  | nil => exact Keeps.pure _
  | cons group groups ih =>
    refine Keeps.memory.bind fun fleet => (Keeps.ofExcept _).bind fun request => ?_
    refine ((Keeps.request fun s => hcommit s _ rfl).bind fun answer => Keeps.pure _).bind fun answer => ?_
    cases answer with
    | error e => exact (h.log _ _).bind fun _ => ih.bind fun _ => Keeps.pure _
    | ok records =>
      refine (h.request rfl rfl rfl).bind fun _ => (h.register _ records).bind fun new => ?_
      exact ih.bind fun _ => Keeps.pure _

theorem create (c : FleetConfig) (patience : Nat) (plan : Plan) (dryRun : Bool) :
    Keeps w I (Fleet.create c patience plan dryRun) :=
  h.toObservant.create (fun s _ => hcommit s _ rfl) (h.launchGroups hcommit) c patience plan dryRun

/-! ## Runs -/

/-- Every operation keeps a stable property, however it ends. -/
theorem perform (c : FleetConfig) (patience : Nat) (o : Operation) : Keeps w I (o.perform c patience) := by
  cases o with
  | start target dryRun => exact (h.start c patience target dryRun).bind fun _ => Keeps.pure _
  | stop target dryRun => exact (h.stop c patience target dryRun).bind fun _ => Keeps.pure _
  | reboot target dryRun => exact (h.reboot c patience target dryRun).bind fun _ => Keeps.pure _
  | terminate target dryRun => exact (h.terminate c patience target dryRun).bind fun _ => Keeps.pure _
  | _ => exact h.toObservant.perform (fun s _ => hcommit s _ rfl) (h.launchGroups hcommit) c patience rfl

/-- A stable property holds after every run of operations that began with it. -/
theorem runAll (c : FleetConfig) (os : List (Nat × Operation)) {s : Run Fleet σ} (hs : I s) :
    I (Fleet.runAll w c s os) := by
  induction os generalizing s with
  | nil => exact hs
  | cons o os ih => exact ih (h.perform hcommit c o.1 o.2 s hs)

end Committing

end Stable

end Fleet

end CloudFleet
