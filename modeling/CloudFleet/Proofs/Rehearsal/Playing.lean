import CloudFleet.Proofs.Fleet.Operation
import CloudFleet.Rehearsal.Stage

/-!
# Worlds with a control plane in memory

A control plane is willing if nothing is planned to fail or to be answered otherwise. It then carries out every call
for a region that it knows (`Willing.answer_eq`), and stays willing. A machine on its way has arrived after one
description, and later ones leave it alone (`advance_advance`).

A world that rehearses on a control plane answers the calls as the plane does, and nothing else touches the plane. What
a program asks there is then played by the plane, one question after the other (`plays_of_questions`), so that what is
known of the questions tells what the answers were and how they left the plane. Whether probes are answered is no
matter of the plane, but of the network (`StaysOpen`).
-/

set_option autoImplicit false

namespace CloudFleet

/-- The state of an instance after it was described: those on their way arrive. -/
def InstanceState.next : InstanceState → InstanceState
  | pending => running
  | stopping => stopped
  | shuttingDown => terminated
  | state => state

theorem Request.calls_of_tells {r : Request} (h : r.tells = true) : r.calls = false := by
  cases r <;> first | rfl | cases h

namespace Rehearsal

namespace ControlPlane

/-! ## Machines on their way -/

@[simp] theorem id_setState (m : Machine) (state : String) : (setState m state).id = m.id := by
  unfold setState
  split <;> rfl

@[simp] theorem region_setState (m : Machine) (state : String) : (setState m state).region = m.region := by
  unfold setState
  split <;> rfl

@[simp] theorem state_setState (m : Machine) (state : String) : (setState m state).state = state := rfl

@[simp] theorem id_advance (m : Machine) : (advance m).id = m.id := by
  unfold advance
  split <;> simp

@[simp] theorem region_advance (m : Machine) : (advance m).region = m.region := by
  unfold advance
  split <;> simp

/-- Three states lead to another one. -/
theorem nextState?_cases {state next : String} (h : nextState? state = some next) :
    (state = "pending" ∧ next = "running") ∨ (state = "stopping" ∧ next = "stopped")
      ∨ (state = "shutting-down" ∧ next = "terminated") := by
  have hmem : (state, next) ∈ [("pending", "running"), ("stopping", "stopped"), ("shutting-down", "terminated")] := by
    obtain ⟨before, after, hsplit, -⟩ := List.lookup_eq_some_iff.mp h
    rw [hsplit]
    exact List.mem_append_right _ List.mem_cons_self
  simpa using hmem

/-- Where one of them leads to is the end of the way. -/
theorem nextState?_of_next {state next : String} (h : nextState? state = some next) : nextState? next = none := by
  rcases nextState?_cases h with ⟨-, rfl⟩ | ⟨-, rfl⟩ | ⟨-, rfl⟩ <;> decide +kernel

theorem nextState?_of_running {state : String} (h : InstanceState.parse? state = some .running) :
    nextState? state = none := by
  cases hnext : nextState? state with
  | none => rfl
  | some next =>
    -- the names of the states that lead on are not read as running
    exfalso
    rcases nextState?_cases hnext with ⟨rfl, -⟩ | ⟨rfl, -⟩ | ⟨rfl, -⟩ <;> revert h <;> decide +kernel

theorem nextState?_name (state : InstanceState) :
    nextState? state.name = if state.next = state then none else some state.next.name := by
  cases state <;> decide +kernel

theorem advance_of_nextState?_eq_none {m : Machine} (h : nextState? m.state = none) : advance m = m := by
  rw [advance, h]

/-- After one description a machine has arrived. -/
theorem advance_advance (m : Machine) : advance (advance m) = advance m := by
  cases h : nextState? m.state with
  | none => rw [advance_of_nextState?_eq_none h, advance_of_nextState?_eq_none h]
  | some next =>
    have hstate : (advance m).state = next := by
      rw [advance, h]
      rfl
    exact advance_of_nextState?_eq_none (hstate ▸ nextState?_of_next h)

theorem advance_of_running {m : Machine} (h : InstanceState.parse? m.state = some .running) : advance m = m :=
  advance_of_nextState?_eq_none (nextState?_of_running h)

theorem state_advance {m : Machine} {state : InstanceState} (h : m.state = state.name) :
    (advance m).state = state.next.name := by
  have hnext := nextState?_name state
  by_cases hsame : state.next = state
  · rw [if_pos hsame] at hnext
    rw [advance, h, hnext, hsame]
    exact h
  · rw [if_neg hsame] at hnext
    rw [advance, h, hnext]
    rfl

/-! ## Willing planes -/

/-- Nothing is planned to fail, or to be answered in another way than usual. -/
structure Willing (p : ControlPlane) : Prop where
  failing : p.failing = []
  replies : p.replies = []
  allowance : p.allowance = none

/-- A willing plane carries out the calls for regions that it knows, but for dry runs. -/
theorem Willing.answer_eq {p : ControlPlane} (h : p.Willing) (call : CloudCall) :
    p.answer call = if call.region ∈ p.regions then
        if call.isDryRun = true then (.error .dryRun, p) else (.ok (p.carryOut call).1, (p.carryOut call).2)
      else (.error (.unknownRegion call.region), p) := by
  have hlet : p.accept call = if call.region ∈ p.regions then .ok p else .error (.unknownRegion call.region) := by
    unfold accept
    by_cases hregion : call.region ∈ p.regions
    · simp [hregion, h.allowance]
    · simp [hregion]
  have htake : p.takeReply call = (.usual, p) := by simp [takeReply, h.replies]
  unfold answer
  rw [hlet]
  by_cases hregion : call.region ∈ p.regions
  · simp [hregion, h.failing, htake, scripted]
  · simp [hregion]

theorem Willing.answer_known {p : ControlPlane} (h : p.Willing) {call : CloudCall} (hregion : call.region ∈ p.regions)
    (hdry : call.isDryRun = false) : p.answer call = (.ok (p.carryOut call).1, (p.carryOut call).2) := by
  rw [h.answer_eq, if_pos hregion, hdry, if_neg Bool.false_ne_true]

theorem Willing.answer_unknown {p : ControlPlane} (h : p.Willing) {call : CloudCall}
    (hregion : call.region ∉ p.regions) : p.answer call = (.error (.unknownRegion call.region), p) := by
  rw [h.answer_eq, if_neg hregion]

/-- A call that is carried out is the only way in which a willing plane changes. -/
theorem Willing.of_carried {p : ControlPlane} (h : p.Willing) {P : ControlPlane → Prop} {call : CloudCall} (hp : P p)
    (hcarried : P (p.carryOut call).2) : P (p.answer call).2 := by
  rw [h.answer_eq]
  split
  · split
    · exact hp
    · exact hcarried
  · exact hp

theorem Willing.carryOut {p : ControlPlane} (h : p.Willing) (call : CloudCall) : (p.carryOut call).2.Willing := by
  cases call with
  | transition kind region ids dryRun => cases kind <;> exact ⟨h.failing, h.replies, h.allowance⟩
  | _ => exact ⟨h.failing, h.replies, h.allowance⟩

theorem Willing.answer {p : ControlPlane} (h : p.Willing) (call : CloudCall) : (p.answer call).2.Willing :=
  h.of_carried (P := Willing) h (h.carryOut call)

theorem regions_carryOut (p : ControlPlane) (call : CloudCall) : (p.carryOut call).2.regions = p.regions := by
  cases call with
  | transition kind region ids dryRun => cases kind <;> rfl
  | _ => rfl

end ControlPlane

/-! ## Worlds that rehearse -/

variable {σ τ ε α : Type} [Memory τ]

/-- The world has a control plane in it, which answers the calls and is touched by nothing else. -/
structure Rehearses (w : World σ) (plane : σ → ControlPlane) : Prop where
  answered : ∀ call world, (w.answer (.cloud call) world).1 = ((plane world).answer call).1
  carried : ∀ call world, plane (w.answer (.cloud call) world).2 = ((plane world).answer call).2
  untouched : ∀ r world, r.calls = false → plane (w.answer r world).2 = plane world

/-- A stage rehearses on its control plane. -/
theorem rehearses_stage {η : Type} [Shell η] : Rehearses (Stage.world : World (Stage η)) Stage.plane where
  answered _ _ := rfl
  carried _ _ := rfl
  untouched r world h := by
    cases r with
    | cloud call => cases h
    | _ => rfl

/-- The plane gives these answers to the calls among some questions, one after the other, and is another one then. -/
def Plays : ControlPlane → List ((r : Request) × r.Reply) → ControlPlane → Prop
  | p, [], q => p = q
  | p, ⟨.cloud call, reply⟩ :: xs, q => (p.answer call).1 = reply ∧ Plays (p.answer call).2 xs q
  | p, _ :: xs, q => Plays p xs q

section Plays

variable {p q r : ControlPlane} {xs ys : List ((r : Request) × r.Reply)}

theorem plays_cons_of_not_calls {x : (r : Request) × r.Reply} (h : x.1.calls = false) :
    Plays p (x :: xs) q ↔ Plays p xs q := by
  obtain ⟨request, reply⟩ := x
  cases request with
  | cloud call => cases h
  | _ => exact Iff.rfl

theorem plays_append : Plays p (xs ++ ys) r ↔ ∃ q, Plays p xs q ∧ Plays q ys r := by
  induction xs generalizing p with
  | nil => exact ⟨fun h => ⟨p, rfl, h⟩, fun ⟨_, hpq, h⟩ => hpq ▸ h⟩
  | cons x xs ih =>
    cases hx : x.1.calls with
    | false => rw [List.cons_append, plays_cons_of_not_calls hx, ih]; simp only [plays_cons_of_not_calls hx]
    | true =>
      obtain ⟨request, reply⟩ := x
      cases request with
      | cloud call =>
        simp only [List.cons_append, Plays, ih]
        exact ⟨fun ⟨ha, q, h⟩ => ⟨q, ⟨ha, h.1⟩, h.2⟩, fun ⟨q, ⟨ha, h⟩, h'⟩ => ⟨ha, q, h, h'⟩⟩
      | _ => cases hx

/-- Where nothing is called the plane stays as it is. -/
theorem eq_of_plays (hxs : ∀ x ∈ xs, x.1.calls = false) (h : Plays p xs q) : p = q := by
  induction xs with
  | nil => exact h
  | cons x xs ih =>
    rw [plays_cons_of_not_calls (hxs x List.mem_cons_self)] at h
    exact ih (fun y hy => hxs y (List.mem_cons_of_mem _ hy)) h

end Plays

namespace Rehearses

variable {w : World σ} {plane : σ → ControlPlane} (hw : Rehearses w plane)
include hw

/-- One request is played by the plane as it is then. -/
theorem plays_ask (r : Request) (t : Run τ σ) :
    Plays (plane t.world) (questions [(.asked r (t.reply w r) : Happening τ)]) (plane (t.ask w r).world) := by
  cases htells : r.tells with
  | true =>
    rw [questions_told htells]
    exact (hw.untouched r t.world (Request.calls_of_tells htells)).symm
  | false =>
    rw [questions_asked htells]
    cases hcalls : r.calls with
    | false =>
      rw [plays_cons_of_not_calls hcalls]
      exact (hw.untouched r t.world hcalls).symm
    | true =>
      cases r with
      | cloud call => exact ⟨(hw.answered call t.world).symm, (hw.carried call t.world).symm⟩
      | _ => cases hcalls

/-- What a program asks is played by the plane. -/
theorem plays_run (p : Program τ ε α) (s : Run τ σ) : ∃ new, (p.run w s).2.history = s.history ++ new
    ∧ Plays (plane s.world) (questions new) (plane (p.run w s).2.world) := by
  refine Program.grows_of_steps (I := fun new t => Plays (plane s.world) (questions new) (plane t.world)) ?_ ?_ p rfl
  · intro r new t hplays
    rw [questions_append]
    exact plays_append.mpr ⟨_, hplays, hw.plays_ask r t⟩
  · intro c new t hplays
    rw [questions_append, questions_changed, List.append_nil]
    exact hplays

/-- The questions by which a run of a program grew were played by the plane. -/
theorem plays_of_questions {p : Program τ ε α} {s t : Run τ σ} {ending : Ending ε α}
    (hrun : p.run w s = (ending, t)) {xs : List ((r : Request) × r.Reply)}
    (h : questions t.history = questions s.history ++ xs) : Plays (plane s.world) xs (plane t.world) := by
  obtain ⟨new, hh, hplays⟩ := hw.plays_run p s
  rw [hrun] at hh hplays
  rwa [questions_of_grown hh h] at hplays

end Rehearses

/-! ## Networks that stay open -/

/-- In some worlds every probe is answered, and whatever is asked there leads to such a world again. -/
structure StaysOpen (w : World σ) (isOpen : σ → Prop) : Prop where
  opened : ∀ address port limit world, isOpen world → (w.answer (.probe address port limit) world).1 = .opened
  kept : ∀ r world, isOpen world → isOpen (w.answer r world).2

/-- The network of a stage stays as it is set up. -/
theorem staysOpen_stage {η : Type} [Shell η] :
    StaysOpen (Stage.world : World (Stage η)) fun stage => stage.network = .allBut [] where
  opened address port limit world h := by
    show world.network.connect address = .opened
    rw [h]
    rfl
  kept r world h := by cases r <;> exact h

namespace StaysOpen

variable {w : World σ} {isOpen : σ → Prop}

theorem of_run (h : StaysOpen w isOpen) {p : Program τ ε α} {s t : Run τ σ} {ending : Ending ε α}
    (hrun : p.run w s = (ending, t)) (hs : isOpen s.world) : isOpen t.world := by
  have hkept := Program.keeps_of_steps (w := w) (I := fun t => isOpen t.world) (fun r t ht => h.kept r t.world ht)
    (fun _ _ ht => ht) p s hs
  rwa [hrun] at hkept

/-- A run of a program that began in such a world opened whatever it probed. -/
theorem opened_of_questions (h : StaysOpen w isOpen) {p : Program τ ε α} {s t : Run τ σ} {ending : Ending ε α}
    (hs : isOpen s.world) (hrun : p.run w s = (ending, t)) {xs : List ((r : Request) × r.Reply)}
    (hxs : questions t.history = questions s.history ++ xs) {address : String} {port : UInt16} {limit : Duration}
    {reply : Connection} (hx : ⟨.probe address port limit, reply⟩ ∈ xs) : reply = .opened := by
  have hkeep : ∃ new, (p.run w s).2.history = s.history ++ new ∧ isOpen (p.run w s).2.world
      ∧ ∀ address port limit reply, .asked (.probe address port limit) reply ∈ new → reply = .opened := by
    refine Program.grows_of_steps (I := fun new t => isOpen t.world
      ∧ ∀ address port limit reply, .asked (.probe address port limit) reply ∈ new → reply = .opened)
      ?_ ?_ p ⟨hs, by simp⟩
    · rintro r new t ⟨ht, hnew⟩
      refine ⟨h.kept r t.world ht, fun address port limit reply hm => ?_⟩
      rcases List.mem_append.mp hm with hm | hm
      · exact hnew address port limit reply hm
      · cases List.mem_singleton.mp hm
        exact h.opened address port limit t.world ht
    · rintro c new t ⟨ht, hnew⟩
      refine ⟨ht, fun address port limit reply hm => ?_⟩
      rcases List.mem_append.mp hm with hm | hm
      · exact hnew address port limit reply hm
      · cases List.mem_singleton.mp hm
  obtain ⟨new, hh, -, hnew⟩ := hkeep
  rw [hrun] at hh
  rw [← questions_of_grown hh hxs] at hx
  exact hnew _ _ _ _ (mem_of_mem_questions hx)

end StaysOpen

end Rehearsal

end CloudFleet
