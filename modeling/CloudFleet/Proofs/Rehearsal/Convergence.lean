import CloudFleet.Proofs.Fleet.Arrival
import CloudFleet.Proofs.Rehearsal.Polling

/-!
# Transitions converge on an orderly control plane

The calls of a transition put the machines of all targets into one state (`plays_moves`, `AllAre`), and leave the
registry waiting for another one. The first poll shows the state that the calls led to, and takes the machines on; the
second one shows where they have arrived. Machines that were rebooted never left the state that is waited for, so that
the first poll is enough. The registry and the plane are then in the same state (`run_pollUntil_converges`).

Main statement, for every orderly control plane and every configuration of regions that it knows:
`transitions_converge`.
-/

set_option autoImplicit false

namespace CloudFleet

variable {σ : Type}

open Rehearsal Rehearsal.ControlPlane

namespace Transition

/-- The state of machines right after they were told to move. -/
def called : Transition → InstanceState
  | start => .pending
  | stop => .stopping
  | reboot => .running
  | terminate => .shuttingDown

/-- The state in which a transition ends. -/
def final : Transition → InstanceState
  | start | reboot => .running
  | stop => .stopped
  | terminate => .terminated

/-- The number of polls after which a transition has ended. -/
def polls : Transition → Nat
  | reboot => 1
  | start | stop | terminate => 2

/-- The number of polls after which a transition of these targets has ended. -/
def pollsFor (kind : Transition) (targets : Subset) : Nat := if targets.isEmpty then 0 else kind.polls

theorem next_called (kind : Transition) : kind.called.next = kind.final := by cases kind <;> rfl

theorem next_final (kind : Transition) : kind.final.next = kind.final := by cases kind <;> rfl

/-- Who has just been told to move has not arrived. -/
theorem awaits_underWay (kind : Transition) (i : Instance) :
    kind.awaits { i with state := kind.underWay, reachable := false } = false := by
  cases kind <;> rfl

/-- Who is shown in the final state, reachable if it is to run, is what was waited for. -/
theorem awaits_final {kind : Transition} {i : Instance} (hstate : i.state = kind.final)
    (hreach : i.reachable = decide (kind.final = .running)) : kind.awaits i = true := by
  cases kind <;> simp_all [awaits, final]

/-- Who is shown on its way has not arrived. -/
theorem awaits_called {kind : Transition} (hkind : kind ≠ .reboot) {i : Instance} (hstate : i.state = kind.called)
    (hreach : i.reachable = decide (kind.called = .running)) : kind.awaits i = false := by
  cases kind <;> simp_all [awaits, called]

end Transition

namespace Rehearsal

namespace ControlPlane

/-! ## Calls that move machines -/

/-- A machine that was told to move. -/
def push (kind : Transition) (m : Machine) : Machine :=
  match target? kind with
  | some state => { m with state }
  | none => m

@[simp] theorem id_push (kind : Transition) (m : Machine) : (push kind m).id = m.id := by cases kind <;> rfl

@[simp] theorem region_push (kind : Transition) (m : Machine) : (push kind m).region = m.region := by cases kind <;> rfl

theorem push_push (kind : Transition) (m : Machine) : push kind (push kind m) = push kind m := by cases kind <;> rfl

theorem state_push {kind : Transition} {m : Machine} (h : kind = .reboot → m.state = InstanceState.running.name) :
    (push kind m).state = kind.called.name := by
  cases kind with
  | reboot => exact h rfl
  | _ => rfl

theorem Regular.push {regions : List Region} {m : Machine} (h : Regular regions m) (kind : Transition) :
    Regular regions (push kind m) := by
  have haddress : (ControlPlane.push kind m).address = m.address := by cases kind <;> rfl
  by_cases hkind : kind = .reboot
  · subst hkind
    exact h
  · have hstate : (ControlPlane.push kind m).state = kind.called.name := state_push fun he => absurd he hkind
    refine ⟨by rw [region_push]; exact h.region, ⟨kind.called, hstate⟩, haddress ▸ h.address, fun hruns => ?_⟩
    -- whoever was told to move is not running any more
    rw [hstate] at hruns
    cases kind <;> first | exact absurd rfl hkind | exact absurd hruns (by decide)

/-- Whether a machine is in one of the groups. -/
def includes (groups : List Group) (m : Machine) : Bool := groups.any fun g => m.region = g.1 && g.2.contains m.id

/-- The machine, told to move if it is in one of the groups. -/
def pushIn (kind : Transition) (groups : List Group) (m : Machine) : Machine :=
  if includes groups m then push kind m else m

theorem pushIn_cons (kind : Transition) (group : Group) (groups : List Group) (m : Machine) :
    pushIn kind (group :: groups) m = pushIn kind groups (pushIn kind [group] m) := by
  have hsame : includes groups (push kind m) = includes groups m := by simp [includes]
  have hcons : includes (group :: groups) m = (includes [group] m || includes groups m) := by simp [includes]
  unfold pushIn
  cases hfirst : includes [group] m <;> cases hrest : includes groups m <;>
    simp [hcons, hfirst, hrest, hsame, push_push]

theorem machines_transition (p : ControlPlane) (kind : Transition) (group : Group) (dryRun : Bool) :
    (p.carryOut (.transition kind group.1 group.2 dryRun)).2.machines = p.machines.map (pushIn kind [group]) := by
  have hfun : pushIn kind [group]
      = fun m : Machine => if (decide (m.region = group.1) && group.2.contains m.id) = true then push kind m else m :=
    funext fun m => by simp [pushIn, includes]
  cases kind <;> simp [carryOut, target?, hfun, push]

/-- Calls that move machines of known regions all succeed, and put the machines of their groups on their way. -/
theorem plays_moves {kind : Transition} {moves : List Fleet.Move} {p q : ControlPlane} (hp : p.Willing)
    (hknown : ∀ m ∈ moves, m.group.1 ∈ p.regions) (h : Plays p (moves.map (Fleet.Move.exchange kind)) q) :
    q.Willing ∧ q.regions = p.regions ∧ (∀ m ∈ moves, m.answer = .ok ())
      ∧ q.machines = p.machines.map (pushIn kind (moves.map Fleet.Move.group)) := by
  induction moves generalizing p with
  | nil =>
    obtain rfl : p = q := h
    have hid : pushIn kind [] = id := funext fun m => by simp [pushIn, includes]
    exact ⟨hp, rfl, by simp, by simp [hid]⟩
  | cons m moves ih =>
    obtain ⟨hanswer, hrest⟩ := h
    let call : CloudCall := .transition kind m.group.1 m.group.2 false
    have hcarried : p.answer call = (.ok (), (p.carryOut call).2) :=
      hp.answer_known (hknown m List.mem_cons_self) rfl
    have hregions := regions_carryOut p call
    rw [hcarried] at hanswer hrest
    obtain ⟨hq, hqregions, hall, hmachines⟩ := ih (hp.carryOut call)
      (fun n hn => hregions ▸ hknown n (List.mem_cons_of_mem _ hn)) hrest
    refine ⟨hq, hqregions.trans hregions, List.forall_mem_cons.mpr ⟨hanswer.symm, hall⟩, ?_⟩
    rw [hmachines, machines_transition, List.map_map]
    exact List.map_congr_left fun n _ => (pushIn_cons kind m.group _ n).symm

/-- A plane stays orderly when machines of some groups are told to move. -/
theorem Orderly.pushIn {p q : ControlPlane} (hp : p.Orderly) (hq : q.Willing) (hregions : q.regions = p.regions)
    {kind : Transition} {groups : List Group} (hmachines : q.machines = p.machines.map (pushIn kind groups)) :
    q.Orderly := by
  refine ⟨hq, ?_, ?_⟩
  · have hids : (Machine.id ∘ ControlPlane.pushIn kind groups) = Machine.id := funext fun m => by
      simp only [Function.comp_apply, ControlPlane.pushIn]
      split <;> simp
    rw [Distinct, hmachines, List.map_map, hids]
    exact hp.distinct
  · rw [hregions, hmachines]
    intro m hm
    obtain ⟨n, hn, rfl⟩ := List.mem_map.mp hm
    unfold ControlPlane.pushIn
    split
    · exact (hp.regular n hn).push kind
    · exact hp.regular n hn

/-- Once they were called, all targets are in the state to which the calls lead. -/
theorem allAre_called {kind : Transition} {moves : List Fleet.Move} {p q : ControlPlane} {targets : Subset}
    (hp : p.Orderly) (hgroups : moves.map Fleet.Move.group = Subset.byRegion targets)
    (hmachines : ∀ i ∈ targets, ∃ m ∈ p.machines, m.id = i.id ∧ m.region = i.region
      ∧ (kind = .reboot → m.state = InstanceState.running.name))
    (h : Plays p (moves.map (Fleet.Move.exchange kind)) q) :
    q.Orderly ∧ AllAre q targets kind.called ∧ ∀ m ∈ moves, m.answer = .ok () := by
  have hknown : ∀ m ∈ moves, m.group.1 ∈ p.regions := by
    intro m hm
    have hgroup : m.group ∈ Subset.byRegion targets := hgroups ▸ List.mem_map_of_mem hm
    obtain ⟨i, hi, hregion⟩ := ((Subset.parted_byRegion targets).regions m.group.1).mp (List.mem_map_of_mem hgroup)
    obtain ⟨n, hn, -, hn', -⟩ := hmachines i hi
    rw [← hregion, ← hn']
    exact (hp.regular n hn).region
  obtain ⟨hq, hregions, hall, heq⟩ := plays_moves hp.willing hknown h
  rw [hgroups] at heq
  refine ⟨hp.pushIn hq hregions heq, fun i hi => ?_, hall⟩
  obtain ⟨m, hm, hid, hregion, hstate⟩ := hmachines i hi
  obtain ⟨group, hgroup, hgregion, hgid⟩ := (Subset.parted_byRegion targets).exists_group hi
  have hin : includes (Subset.byRegion targets) m = true :=
    List.any_eq_true.mpr ⟨group, hgroup, by simp [hregion, hgregion, hid, hgid]⟩
  have hpushed : push kind m ∈ q.machines := by
    rw [heq]
    exact List.mem_map.mpr ⟨m, hm, by rw [pushIn, if_pos hin]⟩
  exact ⟨push kind m, hpushed, by rw [id_push, hid], by rw [region_push, hregion], state_push hstate⟩

end ControlPlane

/-! ## What was announced and called -/

/-- From one run to another these polls were announced, and these calls moved instances. -/
structure Logs (polled : List Event) (called : List ((r : Request) × r.Reply)) (s t : Run Fleet σ) : Prop where
  polls_eq : Fleet.polls t.history = Fleet.polls s.history ++ polled
  orders_eq : Fleet.orders t.history = Fleet.orders s.history ++ called

namespace Logs

variable {polled polled' : List Event} {called called' : List ((r : Request) × r.Reply)} {s t u : Run Fleet σ}

theorem refl (s : Run Fleet σ) : Logs [] [] s s := ⟨by simp, by simp⟩

theorem trans (h : Logs polled called s t) (hlater : Logs polled' called' t u) :
    Logs (polled ++ polled') (called ++ called') s u :=
  ⟨by rw [hlater.polls_eq, h.polls_eq, List.append_assoc],
    by rw [hlater.orders_eq, h.orders_eq, List.append_assoc]⟩

theorem ask (w : World σ) (s : Run Fleet σ) {r : Request} (hmoves : r.moves = false) :
    Logs r.poll?.toList [] s (s.ask w r) := by
  refine ⟨?_, ?_⟩
  · rw [Run.history_ask, Fleet.polls_append]
    cases h : r.poll? <;> simp [Fleet.polls, requests, exchanges, h]
  · rw [Run.history_ask, Fleet.orders_append, Fleet.orders_asked hmoves]

end Logs

/-! ## Waiting -/

/-- The targets are listed, and on an orderly plane they are all in one state. -/
structure Phase (plane : σ → ControlPlane) (isOpen : σ → Prop) (targets : Subset) (state : InstanceState)
    (t : Run Fleet σ) : Prop where
  isOpen : isOpen t.world
  orderly : (plane t.world).Orderly
  lists : Lists t.own targets
  actual : AllAre (plane t.world) targets state

/-- What waiting for the targets of a transition announces after so many polls. -/
def counted (n : Nat) : List Event := (List.range n).map (fun k => .pollTick (k + 1)) ++ [.converged n]

section Waiting

variable {w : World σ} {plane : σ → ControlPlane} {isOpen : σ → Prop} {c : FleetConfig} (hw : Rehearses w plane)
  (hopen : StaysOpen w isOpen) {kind : Transition} {targets : Subset} {state : InstanceState} {s t : Run Fleet σ}

include hw hopen in
/-- Only calls touch the plane. -/
theorem Phase.ask (h : Phase plane isOpen targets state t) {r : Request} (hr : r.calls = false) :
    Phase plane isOpen targets state (t.ask w r) := by
  have hplane : plane (t.ask w r).world = plane t.world := hw.untouched r t.world hr
  exact ⟨hopen.kept r t.world h.isOpen, hplane ▸ h.orderly, h.lists, hplane ▸ h.actual⟩

/-- All targets are shown as they are awaited. -/
theorem allOf_of_shown {f : Fleet} (h : Shown f targets kind.final) : f.allOf targets.ids kind.awaits = true := by
  refine List.all_eq_true.mpr fun id hid => ?_
  obtain ⟨i, hi, rfl⟩ := List.mem_map.mp hid
  obtain ⟨j, hj, -, hstate, hreach⟩ := h i hi
  rw [hj]
  exact Transition.awaits_final hstate hreach

/-- One target that is not as it is awaited is enough to go on waiting. -/
theorem allOf_of_not {f : Fleet} {i j : Instance} (hi : i ∈ targets) (hj : f.get? i.id = some j)
    (hnot : kind.awaits j = false) : f.allOf targets.ids kind.awaits = false := by
  refine List.all_eq_false.mpr ⟨i.id, List.mem_map_of_mem hi, ?_⟩
  rw [hj]
  simp [hnot]

/-- One more poll succeeds: the targets are shown as they were, and are one step further. -/
theorem poll_again {x : Fleet.Wait σ} (hw : Rehearses x.world plane) (hopen : StaysOpen x.world isOpen)
    (hscope : x.scope = .subset targets) {k : Nat} (hs : Phase plane isOpen targets state (x.after k)) :
    x.Succeeds k ∧ Phase plane isOpen targets state.next (x.after (k + 1))
      ∧ Shown (x.after (k + 1)).own targets state ∧ Logs [.pollTick (k + 1)] [] (x.after k) (x.after (k + 1)) := by
  have hclocked : Phase plane isOpen targets state (x.clocked (x.after k))
      ∧ Logs [] [] (x.after k) (x.clocked (x.after k)) := by
    unfold Fleet.Wait.clocked
    cases x.limit with
    | none => exact ⟨hs, .refl _⟩
    | some limit => exact ⟨hs.ask hw hopen rfl, .ask x.world _ (r := .stopwatch) rfl⟩
  obtain ⟨hphase, hlogs⟩ := hclocked
  have hrested := hphase.ask hw hopen (r := .sleep x.config.refreshInterval) rfl
  obtain ⟨v, hrun, horderly, hactual, hshown, hpolls, horders⟩ :=
    poll_shows hw hopen (c := x.config) hrested.isOpen hrested.orderly hrested.lists hrested.actual
  have hrefreshing : x.refreshing (x.after k) = (.returned (), v) := by
    rw [Fleet.Wait.refreshing, hscope]
    exact hrun
  have hafter : x.after (k + 1) = v.ask x.world (.announce (.pollTick (k + 1))) := by
    rw [Fleet.Wait.after, hrefreshing]
  have hrefreshed : Phase plane isOpen targets state.next v :=
    ⟨hopen.of_run hrun hrested.isOpen, horderly, hshown.lists, hactual⟩
  have hwaited : Logs [] [] (x.after k) v :=
    (hlogs.trans (.ask x.world _ (r := .sleep x.config.refreshInterval) rfl)).trans
      ⟨by simp [hpolls], by simp [horders]⟩
  rw [hafter]
  exact ⟨congrArg Prod.fst hrefreshing, hrefreshed.ask hw hopen rfl, hshown,
    hwaited.trans (.ask x.world v (r := .announce (.pollTick (k + 1))) rfl)⟩

include hw hopen

/-- Waiting for the targets of a transition, unless the deadline passes: machines that were told to move are first shown
on their way, then where they have arrived; those that were rebooted never left. -/
theorem run_pollUntil_converges (hs : Phase plane isOpen targets kind.called s)
    (hnot : targets ≠ [] → s.own.allOf targets.ids kind.awaits = false) {patience : Nat}
    (hpatience : kind.polls ≤ patience) (limit : Option Duration) :
    let program := Fleet.pollUntil c patience (.subset targets) limit fun f => f.allOf targets.ids kind.awaits
    (∃ limit' t, program.run w s = (.failed (.timeout limit'), t))
      ∨ ∃ t, program.run w s = (.returned (kind.pollsFor targets), t) ∧ Phase plane isOpen targets kind.final t
        ∧ Shown t.own targets kind.final ∧ Logs (counted (kind.pollsFor targets)) [] s t := by
  intro program
  let x : Fleet.Wait σ := ⟨w, c, .subset targets, limit, fun f => f.allOf targets.ids kind.awaits, s⟩
  have hstart : Phase plane isOpen targets kind.called (x.after 0) := hs.ask hw hopen rfl
  have hstarted : Logs [] [] s (x.after 0) := .ask w s (r := .stopwatch) rfl
  -- once the targets are shown in the final state, that is the end
  have hend {n : Nat} {polls : List Event} (hn : n ≤ patience) (hagain : ∀ k < n, x.Again k)
      (hphase : Phase plane isOpen targets kind.final (x.after n)) (hshown : Shown (x.after n).own targets kind.final)
      (hlogs : Logs polls [] s (x.after n)) (hpolls : polls ++ [.converged n] = counted n)
      (hcount : n = kind.pollsFor targets) :
      ∃ t, program.run w s = (.returned (kind.pollsFor targets), t) ∧ Phase plane isOpen targets kind.final t
        ∧ Shown t.own targets kind.final ∧ Logs (counted (kind.pollsFor targets)) [] s t := by
    subst hcount
    exact ⟨_, (Fleet.Wait.Exit.converged hn hagain (allOf_of_shown hshown)).run_eq, hphase.ask hw hopen rfl, hshown,
      hpolls ▸ hlogs.trans (.ask w _ (r := .announce (.converged _)) rfl)⟩
  by_cases hnone : targets = []
  · subst hnone
    exact .inr (hend (Nat.zero_le patience) nofun ⟨hstart.isOpen, hstart.orderly, hstart.lists, nofun⟩ nofun hstarted
      rfl rfl)
  have hpolls : kind.pollsFor targets = kind.polls := if_neg (by simpa using hnone)
  have hwait : x.holds 0 = false := hnot hnone
  obtain ⟨hsucceeds, hnext, hshown, hlogs⟩ := poll_again (x := x) hw hopen rfl hstart
  rw [Transition.next_called] at hnext
  rcases Fleet.Wait.timeout_or_again (Nat.zero_le patience) nofun hwait hsucceeds with htimeout | hagain
  · exact .inl htimeout
  by_cases hkind : kind = .reboot
  · subst hkind
    exact .inr (hend hpatience hagain hnext hshown (hstarted.trans hlogs) rfl hpolls.symm)
  have htwo : kind.polls = 2 := by cases kind <;> first | rfl | exact absurd rfl hkind
  rw [htwo] at hpolls hpatience
  obtain ⟨i, hi⟩ := List.exists_mem_of_ne_nil targets hnone
  obtain ⟨j, hj, -, hstate, hreach⟩ := hshown i hi
  have hwait' : x.holds 1 = false := allOf_of_not hi hj (Transition.awaits_called hkind hstate hreach)
  obtain ⟨hsucceeds', hlast, hshown', hlogs'⟩ := poll_again (x := x) hw hopen rfl hnext
  rw [Transition.next_final] at hlast
  rcases Fleet.Wait.timeout_or_again (Nat.le_of_lt hpatience) hagain hwait' hsucceeds' with htimeout | hagain'
  · exact .inl htimeout
  exact .inr (hend hpatience hagain' hlast hshown' ((hstarted.trans hlogs).trans hlogs') rfl hpolls.symm)

end Waiting

/-! ## Moving -/

namespace ControlPlane

/-- The state of the machine of an identifier. -/
def stateOf? (p : ControlPlane) (id : InstanceId) : Option String :=
  (p.machines.find? fun m => m.id == id).map Machine.state

theorem Distinct.stateOf?_eq {p : ControlPlane} (h : p.Distinct) {m : Machine} (hm : m ∈ p.machines) :
    p.stateOf? m.id = some m.state := by
  rw [stateOf?]
  cases hfind : p.machines.find? fun n => n.id == m.id with
  | none => exact absurd (List.find?_eq_none.mp hfind m hm) (by simp)
  | some n =>
    have hid : n.id = m.id := by simpa using List.find?_some hfind
    rw [h.eq (List.mem_of_find?_eq_some hfind) hm hid]
    rfl

end ControlPlane

/-- The targets have been moved: each region that has one was called once, about its own, and agreed; so many polls
were announced; and all targets have come to the final state, in the registry and on the plane. -/
structure Converged (plane : σ → ControlPlane) (kind : Transition) (targets sub : Subset) (s t : Run Fleet σ) :
    Prop where
  ids_eq : sub.ids = targets.ids
  orders_eq : Fleet.orders t.history = Fleet.orders s.history
    ++ (targets.map Instance.region).eraseDups.map fun region =>
      ⟨.cloud (.transition kind region (targets.idsIn region) false), .ok ()⟩
  polls_eq : Fleet.polls t.history = Fleet.polls s.history ++ counted (kind.pollsFor targets)
  agree : ∀ i ∈ sub, t.own.get? i.id = some i ∧ i.state = kind.final
    ∧ (plane t.world).stateOf? i.id = some kind.final.name

/-- Whoever is taken by default is in the state that is required. -/
theorem required_of_default (kind : Transition) (f : Fleet) :
    ∀ expected, kind.required? = some expected → ∀ i ∈ kind.default f, i.state = expected := by
  intro expected hexpected i hi
  cases kind <;> cases hexpected <;> exact beq_iff_eq.mp (List.mem_filter.mp hi).2

/-- Whoever is taken by default is not yet as it is awaited once its region was called. -/
theorem awaits_of_default {kind : Transition} {moves : List Fleet.Move} {targets : Subset} {s t : Run Fleet σ}
    (h : Fleet.Moved kind targets moves s t) (hall : Fleet.failing moves = []) {i : Instance} (hi : i ∈ targets)
    (hget : s.own.get? i.id = some i) :
    ∃ j, t.own.get? i.id = some j ∧ j.region = i.region ∧ kind.awaits j = false := by
  have hmoved := Fleet.get?_map s.own (g := fun i =>
    if i.id ∈ targets.ids ∧ i.region ∉ Fleet.failing moves then { i with state := kind.underWay, reachable := false }
    else i) (fun i => by split <;> rfl) i.id
  rw [← h.own_eq, hget, Option.map_some, hall, if_pos ⟨List.mem_map_of_mem hi, List.not_mem_nil⟩] at hmoved
  exact ⟨_, hmoved, rfl, kind.awaits_underWay i⟩

theorem asks_transitionGroups (kind : Transition) (groups : List Group) :
    (Fleet.transitionGroups kind false groups).Asks fun r => r.poll? = none := by
  induction groups with
  | nil => exact .pure _
  | cons group groups ih =>
    have hcall : (Cloud.transition kind group.1 group.2 false : FleetProgram _).Asks fun r => r.poll? = none :=
      (Fleet.asks_unpolled (by rfl)).bind fun _ => .pure _
    refine (Fleet.asks_unpolled (by rfl)).bind fun _ => hcall.bind fun answer => ?_
    cases answer with
    | ok _ => exact (Program.Asks.each _ fun _ => .remember _).bind fun _ => ih
    | error e =>
      have hwarn : (Program.warn s!"{kind.name} in {group.1.name} failed: {e.message}" : FleetProgram Unit).Asks
          fun r => r.poll? = none := .request rfl
      exact hwarn.bind fun _ => ih.bind fun _ => .pure _

/-- Where all regions agree, each one is called once, about its own targets. -/
theorem calls_of_agreed {kind : Transition} {moves : List Fleet.Move} {targets : Subset}
    (hgroups : moves.map Fleet.Move.group = (targets.map Instance.region).eraseDups.map fun region =>
      (region, targets.idsIn region))
    (hagreed : ∀ m ∈ moves, m.answer = .ok ()) :
    (moves.map (Fleet.Move.exchange kind)).filter (fun x => x.1.moves)
      = (targets.map Instance.region).eraseDups.map fun region =>
        ⟨.cloud (.transition kind region (targets.idsIn region) false), .ok ()⟩ := by
  have hall : moves.map (Fleet.Move.exchange kind) = (moves.map Fleet.Move.group).map fun group =>
      ⟨.cloud (.transition kind group.1 group.2 false), .ok ()⟩ := by
    rw [List.map_map]
    refine List.map_congr_left fun m hm => ?_
    rw [Fleet.Move.exchange, hagreed m hm]
    rfl
  rw [hall, hgroups, List.map_map, List.filter_eq_self.mpr]
  · rfl
  · intro x hx
    obtain ⟨region, -, rfl⟩ := List.mem_map.mp hx
    rfl

/-- The machines of those who are taken by default; they run if they are to be rebooted. -/
theorem machines_of_default {kind : Transition} {f : Fleet} {p : ControlPlane} (hp : p.Orderly) (h : Accords f p) :
    ∀ i ∈ kind.default f, ∃ m ∈ p.machines, m.id = i.id ∧ m.region = i.region
      ∧ (kind = .reboot → m.state = InstanceState.running.name) := by
  intro i hi
  have htold := h.told i (Fleet.mem_of_mem_default kind f i hi)
  by_cases hkind : kind = .reboot
  · subst hkind
    rw [required_of_default .reboot f .running rfl i hi] at htold
    obtain ⟨m, hm, hid, hregion, hruns⟩ := htold.running
    obtain ⟨state, hstate⟩ := (hp.regular m hm).state
    rw [hstate, InstanceState.parse?_name, Option.some.injEq] at hruns
    exact ⟨m, hm, hid, hregion, fun _ => hruns ▸ hstate⟩
  · obtain ⟨m, hm, hid, hregion⟩ := htold.machine
    exact ⟨m, hm, hid, hregion, fun he => absurd he hkind⟩

section Moving

variable {w : World σ} {plane : σ → ControlPlane} {isOpen : σ → Prop} {c : FleetConfig} (hw : Rehearses w plane)
  (hopen : StaysOpen w isOpen) {kind : Transition} {s : Run Fleet σ}
include hw hopen

variable (kind) in
/-- One call per region, and all that is left is to wait. -/
theorem run_moving_called (hs : isOpen s.world) (hp : (plane s.world).Orderly) (hacc : Accords s.own (plane s.world)) :
    let targets := kind.default s.own
    ∃ t, (∀ patience, (Fleet.moving c patience kind none).run w s = (Fleet.arrival c patience kind targets).run w t)
      ∧ Phase plane isOpen targets kind.called t
      ∧ (targets ≠ [] → t.own.allOf targets.ids kind.awaits = false)
      ∧ Logs [] ((targets.map Instance.region).eraseDups.map fun region =>
        ⟨.cloud (.transition kind region (targets.idsIn region) false), .ok ()⟩) s t := by
  intro targets
  have hmem := Fleet.mem_of_mem_default kind s.own
  obtain ⟨moves, t, hrun, hgroups, hsending⟩ := Fleet.run_transitionGroups w kind (Subset.byRegion targets) s
  have hplays := hw.plays_of_questions hrun hsending.asks.questions_eq
  obtain ⟨horderly, hactual, hagreed⟩ := allAre_called hp hgroups (machines_of_default hp hacc) hplays
  have hnone : moves.filterMap Fleet.Move.failure? = [] :=
    List.filterMap_eq_nil_iff.mpr fun m hm => by rw [Fleet.Move.failure?, hagreed m hm]
  have hmoved := hsending.moved hacc.ids_nodup hmem hgroups
  have hgone : ∀ i ∈ targets, ∃ j, t.own.get? i.id = some j ∧ j.region = i.region ∧ kind.awaits j = false := fun i hi =>
    awaits_of_default hmoved (by rw [Fleet.failing, hnone]; rfl) hi (Fleet.get?_of_mem hacc.ids_nodup (hmem i hi))
  refine ⟨t, fun patience => ?_, ⟨hopen.of_run hrun hs, horderly, fun i hi => ?_, hactual⟩, fun hsome => ?_, ?_, ?_⟩
  · have htransition : (Fleet.transition kind targets false).run w s = (.returned (), t) := by
      refine (Program.run_andThen_of_returned hrun _).trans ?_
      rw [Fleet.run_settle, if_pos hnone]
    rw [Fleet.moving_eq, Program.run_andThen_of_returned (Fleet.run_targetsOr w none kind.default s),
      Program.run_andThen_of_returned (Fleet.run_requireFor w (required_of_default kind s.own) s),
      Program.run_andThen_of_returned htransition]
  · obtain ⟨j, hj, hregion, -⟩ := hgone i hi
    exact ⟨j, hj, hregion⟩
  · obtain ⟨i, hi⟩ := List.exists_mem_of_ne_nil targets hsome
    obtain ⟨j, hj, -, hnot⟩ := hgone i hi
    exact allOf_of_not hi hj hnot
  · have hpolls := Fleet.polls_of_asks (asks_transitionGroups kind (Subset.byRegion targets)) w s
    rw [hrun] at hpolls
    rw [hpolls, List.append_nil]
  · rw [Fleet.orders, hmoved.questions_eq, List.filter_append, calls_of_agreed hmoved.groups_eq hagreed]
    rfl

/-- Moving those who are taken by default converges, unless the deadline passes. -/
theorem run_moving_converges (hs : isOpen s.world) (hp : (plane s.world).Orderly)
    (hacc : Accords s.own (plane s.world)) {patience : Nat} (hpatience : kind.polls ≤ patience) :
    (∃ limit t, (Fleet.moving c patience kind none).run w s = (.failed (.timeout limit), t))
      ∨ ∃ sub t, (Fleet.moving c patience kind none).run w s = (.returned sub, t)
        ∧ Converged plane kind (kind.default s.own) sub s t := by
  obtain ⟨u, hmoving, hu, hnot, hulogs⟩ := run_moving_called hw hopen kind (c := c) hs hp hacc
  rw [hmoving, Fleet.arrival_eq]
  rcases run_pollUntil_converges hw hopen (c := c) hu hnot hpatience c.convergenceTimeout with
    ⟨limit, t, htimeout⟩ | ⟨t, hrun, ht, hshown, htlogs⟩
  · exact .inl ⟨limit, t, Program.run_andThen_of_failed htimeout _⟩
  right
  rw [Program.run_andThen_of_returned hrun]
  obtain ⟨sub, hsub⟩ := Fleet.lookupAll_of_knows ht.lists.knows
  have hresolve : t.own.resolve (.subset (kind.default s.own)) = .ok sub := hsub
  have hlogs := hulogs.trans htlogs
  refine ⟨sub, t, ?_, Fleet.ids_lookupAll hsub, ?_, ?_, fun i hi => ?_⟩
  · rw [Fleet.reread, Program.run_andThen_of_returned (Program.run_memory w t), hresolve]
    rfl
  · rw [hlogs.orders_eq, List.append_nil]
  · rw [hlogs.polls_eq, List.nil_append]
  · have hget := Fleet.get?_of_mem_lookupAll hsub hi
    have hid : i.id ∈ (kind.default s.own).ids := Fleet.ids_lookupAll hsub ▸ List.mem_map_of_mem hi
    obtain ⟨j, hj, hji⟩ := List.mem_map.mp hid
    obtain ⟨k, hk, -, hstate, -⟩ := hshown j hj
    obtain ⟨m, hm, hmid, -, hmstate⟩ := ht.actual j hj
    rw [hji, hget, Option.some.injEq] at hk
    refine ⟨hget, hk ▸ hstate, ?_⟩
    rw [← hji, ← hmid, ht.orderly.distinct.stateOf?_eq hm, hmstate]

/-- After a refresh of everything, the registry is in accord with an orderly plane. -/
theorem refresh_accords (hknown : ∀ region ∈ c.regions, region ∈ (plane s.world).regions) (hs : isOpen s.world)
    (hp : (plane s.world).Orderly) (hacc : Accords s.own (plane s.world)) :
    ∃ t, (Fleet.refresh c .all).run w s = (.returned (), t) ∧ isOpen t.world ∧ (plane t.world).Orderly
      ∧ Accords t.own (plane t.world) := by
  have hgroups : ∀ group ∈ c.regions.map fun region => ((region, []) : Group),
      group.1 ∈ (plane s.world).regions := by
    intro group hgroup
    obtain ⟨region, hregion, rfl⟩ := List.mem_map.mp hgroup
    exact hknown region hregion
  have hall : Fleet.groupsOf c s.own .all = .ok (c.regions.map fun region => (region, [])) := rfl
  obtain ⟨attempts, t, hrun, -, hplays, hown, -⟩ := refresh_returns hw hopen hall hs hp hgroups
  refine ⟨t, hrun, hopen.of_run hrun hs, (hp.plays (calm_attempts attempts) hplays).1, ?_⟩
  rw [hown]
  exact (hacc.learn hp.willing hplays).2.1.confirmEach _

end Moving

/-- On every orderly control plane, and for every configuration of regions that it knows: the first refresh of
everything succeeds, and unless the deadline passes, so does then moving those whom a transition takes by default. It
calls each region once that has one of them; waits for two polls, for one if they are rebooted, and for none if there
are none; and then all of them are in the final state in the registry, and on the plane as well. -/
theorem transitions_converge {w : World σ} {plane : σ → ControlPlane} {isOpen : σ → Prop} (hw : Rehearses w plane)
    (hopen : StaysOpen w isOpen) {c : FleetConfig} {world : σ} (hworld : isOpen world) (hp : (plane world).Orderly)
    (hknown : ∀ region ∈ c.regions, region ∈ (plane world).regions) :
    ∃ s, (Fleet.refresh c .all).run w (Fleet.fresh world) = (.returned (), s)
      ∧ ∀ (kind : Transition) (patience : Nat), kind.polls ≤ patience →
        (∀ limit t, (Fleet.moving c patience kind none).run w s ≠ (.failed (.timeout limit), t)) →
        ∃ sub t, (Fleet.moving c patience kind none).run w s = (.returned sub, t)
          ∧ Converged plane kind (kind.default s.own) sub s t := by
  obtain ⟨s, hrun, hs, hps, hacc⟩ :=
    refresh_accords hw hopen (s := Fleet.fresh world) hknown hworld hp (.empty hp.distinct)
  refine ⟨s, hrun, fun kind patience hpatience hintime => ?_⟩
  rcases run_moving_converges hw hopen (c := c) hs hps hacc hpatience with ⟨limit, t, htimeout⟩ | hconverges
  · exact absurd htimeout (hintime limit t)
  · exact hconverges

/-! ## Two regions on a stage -/

/-- Two regions that are known. -/
def paris : Region := ⟨"eu-west-3"⟩

/-- The other one. -/
def virginia : Region := ⟨"us-east-1"⟩

/-- A fleet in both, which waits for at most a minute. -/
def bothRegions : FleetConfig :=
  { regions := [paris, virginia], convergenceTimeoutSecs := some 60, bootstrapScript := none }

/-- A stage with a control plane on which one machine runs, one has stopped and one is about to run. -/
def mixedStage : Stage Hosts :=
  { shell := {}
    files := { root := [] }
    plane :=
      { regions := [paris, virginia]
        machines := [machine "i-1" paris "running" none (some "ok"), machine "i-2" virginia "stopped" none none,
          machine "i-3" paris "pending" none none] } }

theorem orderly_mixedStage : mixedStage.plane.Orderly where
  willing := ⟨rfl, rfl, rfl⟩
  distinct := by
    show ["i-1", "i-2", "i-3"].Nodup
    decide
  regular := by
    have hparis : paris ∈ mixedStage.plane.regions := List.mem_cons_self
    have hvirginia : virginia ∈ mixedStage.plane.regions := List.mem_cons_of_mem _ List.mem_cons_self
    intro m hm
    rcases List.mem_cons.mp hm with rfl | hm
    · exact regular_machine hparis "i-1" .running (some "ok")
    rcases List.mem_pair.mp hm with rfl | rfl
    · exact regular_machine hvirginia "i-2" .stopped none
    · exact regular_machine hparis "i-3" .pending none

theorem transitions_converge_mixed :
    ∃ s sub t, (Fleet.refresh bothRegions .all).run Stage.world (Fleet.fresh mixedStage) = (.returned (), s)
      ∧ (Fleet.moving bothRegions 2 .terminate none).run Stage.world s = (.returned sub, t)
      ∧ Converged Stage.plane .terminate (Transition.terminate.default s.own) sub s t
      ∧ (Transition.terminate.default s.own).ids = ["i-1", "i-3", "i-2"] := by
  obtain ⟨s, hrun, hmoving⟩ := transitions_converge (c := bothRegions) rehearses_stage staysOpen_stage (by rfl)
    orderly_mixedStage fun region hregion => hregion
  have hs : s = ((Fleet.refresh bothRegions .all).run Stage.world (Fleet.fresh mixedStage)).2 := by rw [hrun]
  have hin : ∃ sub, ((Fleet.moving bothRegions 2 .terminate none).run Stage.world s).1 = .returned sub := by
    rw [hs]
    exact ⟨_, rfl⟩
  obtain ⟨sub, t, hreturned, hconverged⟩ := hmoving .terminate 2 (by decide) fun limit t htimeout => by
    obtain ⟨sub, hsub⟩ := hin
    rw [htimeout] at hsub
    cases hsub
  refine ⟨s, sub, t, hrun, hreturned, hconverged, ?_⟩
  rw [hs]
  rfl

end Rehearsal

end CloudFleet
