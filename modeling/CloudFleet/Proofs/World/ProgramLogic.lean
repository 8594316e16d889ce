import CloudFleet.World.Program

/-!
# What programs keep and what they ensure

Two ways to speak of a run of a program in a world of which nothing is known.

- `Program.Keeps`: a property of runs that holds before also holds after, however the program ends. It passes through
  every way of combining programs (`Keeps.bind`, `Keeps.attempt`, `Keeps.each`, `Keeps.collect`), and a property that
  every single request and change keeps is kept by every program (`keeps_of_steps`).
- `Program.Ensures`: what holds after the program returned, and what holds after it failed (`Ensures.bind`,
  `Ensures.attempt`).

What a program adds to its history is what it remembers (`own_eq_replay`).
-/

set_option autoImplicit false

namespace CloudFleet

variable {τ σ ε ε' α β : Type} [Memory τ]

/-! ## Histories -/

@[simp] theorem replay_nil (m : τ) : replay m [] = m := rfl

@[simp] theorem replay_asked (m : τ) (r : Request) (reply : r.Reply) (h : List (Happening τ)) :
    replay m (.asked r reply :: h) = replay m h := rfl

@[simp] theorem replay_changed (m : τ) (c : Memory.Change τ) (h : List (Happening τ)) :
    replay m (.changed c :: h) = replay (Memory.apply m c) h := rfl

@[simp] theorem replay_append (m : τ) (h k : List (Happening τ)) : replay m (h ++ k) = replay (replay m h) k := by
  simp [replay]

@[simp] theorem exchanges_append (h k : List (Happening τ)) : exchanges (h ++ k) = exchanges h ++ exchanges k := by
  simp [exchanges]

@[simp] theorem requests_append (h k : List (Happening τ)) : requests (h ++ k) = requests h ++ requests k := by
  simp [requests]

/-- Whether a request only tells something: an event, a line of the log, a move of the progress bar. -/
def Request.tells : Request → Bool
  | .announce _ | .log _ | .progress _ => true
  | _ => false

/-- All that was asked, with the answers: the exchanges that do not only tell something. -/
def questions (h : List (Happening τ)) : List ((r : Request) × r.Reply) := (exchanges h).filter fun x => !x.1.tells

theorem questions_append (h k : List (Happening τ)) : questions (h ++ k) = questions h ++ questions k := by
  simp [questions]

/-- What a history grew by holds the questions that were added. -/
theorem questions_of_grown {old new grown : List (Happening τ)} {asked : List ((r : Request) × r.Reply)}
    (hh : grown = old ++ new) (hq : questions grown = questions old ++ asked) : questions new = asked := by
  rw [hh, questions_append] at hq
  exact List.append_cancel_left hq

theorem questions_asked {r : Request} (hr : r.tells = false) (reply : r.Reply) :
    questions [(.asked r reply : Happening τ)] = [⟨r, reply⟩] := by
  simp [questions, exchanges, hr]

theorem questions_told {r : Request} (hr : r.tells = true) (reply : r.Reply) :
    questions [(.asked r reply : Happening τ)] = [] := by
  simp [questions, exchanges, hr]

theorem questions_changed (c : Memory.Change τ) : questions [(.changed c : Happening τ)] = [] := rfl

/-- What was asked is in the history. -/
theorem mem_of_mem_questions {h : List (Happening τ)} {r : Request} {reply : r.Reply} (hm : ⟨r, reply⟩ ∈ questions h) :
    .asked r reply ∈ h := by
  obtain ⟨happening, hh, he⟩ := List.mem_filterMap.mp (List.mem_filter.mp hm).1
  cases happening with
  | asked r' reply' =>
    cases he
    exact hh
  | changed c => cases he

/-! ## Steps of a run -/

namespace Run

/-- The answer to a request. -/
def reply (w : World σ) (s : Run τ σ) (r : Request) : r.Reply := (w.answer r s.world).1

/-- The run after a request was answered. -/
def ask (w : World σ) (s : Run τ σ) (r : Request) : Run τ σ :=
  ⟨s.own, (w.answer r s.world).2, s.history ++ [.asked r (s.reply w r)]⟩

/-- The run after a change of memory. -/
def change (s : Run τ σ) (c : Memory.Change τ) : Run τ σ := ⟨Memory.apply s.own c, s.world, s.history ++ [.changed c]⟩

@[simp] theorem own_ask (w : World σ) (s : Run τ σ) (r : Request) : (s.ask w r).own = s.own := rfl

@[simp] theorem world_ask (w : World σ) (s : Run τ σ) (r : Request) :
    (s.ask w r).world = (w.answer r s.world).2 := rfl

@[simp] theorem history_ask (w : World σ) (s : Run τ σ) (r : Request) :
    (s.ask w r).history = s.history ++ [.asked r (s.reply w r)] := rfl

@[simp] theorem own_change (s : Run τ σ) (c : Memory.Change τ) : (s.change c).own = Memory.apply s.own c := rfl

@[simp] theorem world_change (s : Run τ σ) (c : Memory.Change τ) : (s.change c).world = s.world := rfl

@[simp] theorem history_change (s : Run τ σ) (c : Memory.Change τ) :
    (s.change c).history = s.history ++ [.changed c] := rfl

end Run

namespace Program

/-! ## Runs of the parts of programs -/

@[simp] theorem run_pure (w : World σ) (a : α) (s : Run τ σ) :
    (pure a : Program τ ε α).run w s = (.returned a, s) := rfl

@[simp] theorem run_raise (w : World σ) (e : ε) (s : Run τ σ) :
    (raise e : Program τ ε α).run w s = (.failed e, s) := rfl

@[simp] theorem run_request (w : World σ) (r : Request) (s : Run τ σ) :
    (request r : Program τ ε r.Reply).run w s = (.returned (s.reply w r), s.ask w r) := rfl

@[simp] theorem run_memory (w : World σ) (s : Run τ σ) :
    (memory : Program τ ε τ).run w s = (.returned s.own, s) := rfl

@[simp] theorem run_remember (w : World σ) (c : Memory.Change τ) (s : Run τ σ) :
    (remember c : Program τ ε Unit).run w s = (.returned (), s.change c) := rfl

/-- One program after another, seen from how the first one ends. -/
theorem run_andThen (w : World σ) (p : Program τ ε α) (f : α → Program τ ε β) (s : Run τ σ) :
    (p >>= f).run w s = match p.run w s with
      | (.returned a, s) => (f a).run w s
      | (.failed e, s) => (.failed e, s)
      | (.crashed, s) => (.crashed, s)
      | (.stalled, s) => (.stalled, s) := run_bind w p f s

/-- Programs one after the other can be grouped in any way. -/
theorem andThen_assoc {γ : Type} (p : Program τ ε α) (f : α → Program τ ε β) (g : β → Program τ ε γ) :
    (p >>= f) >>= g = p >>= fun a => f a >>= g := by
  show (p.bind f).bind g = p.bind fun a => (f a).bind g
  induction p with
  | finish ending => cases ending <;> rfl
  | ask r next ih => exact congrArg (ask r) (funext ih)
  | consult next ih => exact congrArg consult (funext ih)
  | change c next ih => exact congrArg (change c) ih

/-- After a program that returns, the next one goes on. -/
theorem run_andThen_of_returned {w : World σ} {p : Program τ ε α} {s t : Run τ σ} {a : α}
    (h : p.run w s = (.returned a, t)) (f : α → Program τ ε β) : (p >>= f).run w s = (f a).run w t := by
  rw [run_andThen, h]

/-- After a program that fails, nothing follows. -/
theorem run_andThen_of_failed {w : World σ} {p : Program τ ε α} {s t : Run τ σ} {e : ε}
    (h : p.run w s = (.failed e, t)) (f : α → Program τ ε β) : (p >>= f).run w s = (.failed e, t) := by
  rw [run_andThen, h]

theorem run_andThen_return (w : World σ) (p : Program τ ε α) (s : Run τ σ) :
    (p >>= fun a => pure a).run w s = p.run w s := by
  rw [run_andThen]
  cases hr : p.run w s with
  | mk ending t => cases ending <;> rfl

/-- A program followed by a value leaves the run that it leaves alone. -/
theorem run_andThen_pure (w : World σ) (p : Program τ ε α) (f : α → β) (s : Run τ σ) :
    ((p >>= fun a => pure (f a)).run w s).2 = (p.run w s).2 := by
  rw [run_andThen]
  cases hr : p.run w s with
  | mk ending t => cases ending <;> rfl

/-- What holds after the first of two programs however it ends, and after the second one when the first returned, holds
after both. -/
theorem after_andThen {G : Run τ σ → Prop} {w : World σ} {p : Program τ ε α} {f : α → Program τ ε β} {s : Run τ σ}
    (hp : G (p.run w s).2) (hf : ∀ a t, p.run w s = (.returned a, t) → G ((f a).run w t).2) :
    G ((p >>= f).run w s).2 := by
  rw [run_andThen]
  cases hr : p.run w s with
  | mk ending t =>
    rw [hr] at hp
    cases ending with
    | returned a => exact hf a t hr
    | failed e => exact hp
    | crashed => exact hp
    | stalled => exact hp

/-- A program whose error becomes an answer. -/
theorem run_attempt (w : World σ) (p : Program τ ε α) (s : Run τ σ) :
    (p.attempt : Program τ ε' (Except ε α)).run w s = match p.run w s with
      | (.returned a, s) => (.returned (.ok a), s)
      | (.failed e, s) => (.returned (.error e), s)
      | (.crashed, s) => (.crashed, s)
      | (.stalled, s) => (.stalled, s) := by
  induction p generalizing s with
  | finish ending => cases ending <;> rfl
  | ask r next ih => exact ih _ _
  | consult next ih => exact ih _ _
  | change c next ih => exact ih _

/-- Putting an error in other terms changes nothing of the run. -/
theorem run_mapError_snd (w : World σ) (f : ε → ε') (p : Program τ ε α) (s : Run τ σ) :
    ((p.mapError f).run w s).2 = (p.run w s).2 := by
  rw [mapError, run_andThen, run_attempt]
  cases hr : p.run w s with
  | mk ending t => cases ending <;> rfl

/-- A loop whose items make one request each adds these requests, in order, and leaves the memory alone. -/
theorem run_collect_asking {w : World σ} {f : α → Program τ ε β} (asked : α → β → Happening τ)
    (hf : ∀ a s, ∃ b t, (f a).run w s = (.returned b, t) ∧ t.own = s.own ∧ t.history = s.history ++ [asked a b])
    (as : List α) (s : Run τ σ) :
    ∃ bs t, (collect f as).run w s = (.returned bs, t) ∧ bs.length = as.length ∧ t.own = s.own
      ∧ t.history = s.history ++ (as.zip bs).map fun x => asked x.1 x.2 := by
  induction as generalizing s with
  | nil => exact ⟨[], s, rfl, rfl, rfl, by simp⟩
  | cons a as ih =>
    obtain ⟨b, t, hrun, hown, hh⟩ := hf a s
    obtain ⟨bs, u, hrest, hlength, hown', hh'⟩ := ih t
    refine ⟨b :: bs, u, ?_, by simp [hlength], by rw [hown', hown], ?_⟩
    · rw [collect, run_andThen_of_returned hrun, run_andThen_of_returned hrest]
      rfl
    · rw [hh', hh, List.append_assoc]
      rfl

/-- What a run remembers is the replay of what it added to its history. -/
theorem own_eq_replay (w : World σ) (p : Program τ ε α) {s : Run τ σ} {m : τ} (h : s.own = replay m s.history) :
    (p.run w s).2.own = replay m (p.run w s).2.history := by
  obtain ⟨new, hh, ho⟩ := run_history w p s
  rw [ho, hh, h, replay_append]

/-- A program that begins with a request has its answer first in what it adds to the history. -/
theorem history_ask_first (w : World σ) (r : Request) (next : r.Reply → Program τ ε α) (s : Run τ σ) :
    ∃ more, ((Program.ask r next).run w s).2.history = s.history ++ .asked r (s.reply w r) :: more := by
  obtain ⟨more, hh, -⟩ := run_history w (next (s.reply w r)) (s.ask w r)
  refine ⟨more, hh.trans ?_⟩
  rw [Run.history_ask, List.append_assoc]
  rfl

/-! ## Properties that programs keep -/

/-- If a run has the property before the program, it has it after. -/
def Keeps (w : World σ) (I : Run τ σ → Prop) (p : Program τ ε α) : Prop := ∀ s, I s → I (p.run w s).2

section Keeps

variable {w : World σ} {I : Run τ σ → Prop}

theorem Keeps.finish (e : Ending ε α) : Keeps w I (Program.finish e) := fun _ h => h

theorem Keeps.pure (a : α) : Keeps w I (pure a : Program τ ε α) := fun _ h => h

theorem Keeps.raise (e : ε) : Keeps w I (raise e : Program τ ε α) := fun _ h => h

theorem Keeps.crash : Keeps w I (crash : Program τ ε α) := fun _ h => h

theorem Keeps.stall : Keeps w I (stall : Program τ ε α) := fun _ h => h

theorem Keeps.memory : Keeps w I (memory : Program τ ε τ) := fun _ h => h

theorem Keeps.request {r : Request} (h : ∀ s, I s → I (s.ask w r)) : Keeps w I (request r : Program τ ε r.Reply) := h

theorem Keeps.remember {c : Memory.Change τ} (h : ∀ s, I s → I (s.change c)) :
    Keeps w I (remember c : Program τ ε Unit) := h

theorem Keeps.bind {p : Program τ ε α} {f : α → Program τ ε β} (hp : Keeps w I p) (hf : ∀ a, Keeps w I (f a)) :
    Keeps w I (p >>= f) := by
  intro s hs
  refine after_andThen (hp s hs) fun a t hr => hf a t ?_
  have h := hp s hs
  rwa [hr] at h

theorem Keeps.attempt {p : Program τ ε α} (hp : Keeps w I p) :
    Keeps w I (p.attempt : Program τ ε' (Except ε α)) := by
  intro s hs
  have h := hp s hs
  rw [run_attempt]
  cases hr : p.run w s with
  | mk ending t =>
    rw [hr] at h
    cases ending <;> exact h

theorem Keeps.ofExcept (x : Except ε α) : Keeps w I (ofExcept x : Program τ ε α) := by
  cases x <;> exact Keeps.finish _

theorem Keeps.mapError {f : ε → ε'} {p : Program τ ε α} (hp : Keeps w I p) : Keeps w I (p.mapError f) := by
  refine hp.attempt.bind fun x => ?_
  cases x <;> exact Keeps.finish _

theorem Keeps.each {f : α → Program τ ε Unit} (as : List α) (hf : ∀ a ∈ as, Keeps w I (f a)) :
    Keeps w I (each f as) := by
  induction as with
  | nil => exact Keeps.pure ()
  | cons a as ih =>
    exact (hf a (by simp)).bind fun _ => ih fun b hb => hf b (by simp [hb])

theorem Keeps.collect {f : α → Program τ ε β} (as : List α) (hf : ∀ a ∈ as, Keeps w I (f a)) :
    Keeps w I (collect f as) := by
  induction as with
  | nil => exact Keeps.pure []
  | cons a as ih =>
    refine (hf a (by simp)).bind fun b => ?_
    exact (ih fun b hb => hf b (by simp [hb])).bind fun _ => Keeps.pure _

/-- What every request and every change keeps, every program keeps. -/
theorem keeps_of_steps (hr : ∀ r s, I s → I (s.ask w r)) (hc : ∀ c s, I s → I (s.change c)) (p : Program τ ε α) :
    Keeps w I p := by
  intro s hs
  induction p generalizing s with
  | finish ending => exact hs
  | ask r next ih => exact ih _ _ (hr r s hs)
  | consult next ih => exact ih _ s hs
  | change c next ih => exact ih _ (hc c s hs)

end Keeps

/-- What every request and every change keeps of a run and of what has come since, every program keeps of what it adds
to the history. -/
theorem grows_of_steps {w : World σ} {I : List (Happening τ) → Run τ σ → Prop}
    (hr : ∀ r new t, I new t → I (new ++ [.asked r (t.reply w r)]) (t.ask w r))
    (hc : ∀ c new t, I new t → I (new ++ [.changed c]) (t.change c)) (p : Program τ ε α) {s : Run τ σ} (h : I [] s) :
    ∃ new, (p.run w s).2.history = s.history ++ new ∧ I new (p.run w s).2 := by
  refine keeps_of_steps (I := fun t => ∃ new, t.history = s.history ++ new ∧ I new t) ?_ ?_ p s
    ⟨[], (List.append_nil _).symm, h⟩
  · rintro r t ⟨new, hh, ht⟩
    exact ⟨new ++ [.asked r (t.reply w r)], by rw [Run.history_ask, hh, List.append_assoc], hr r new t ht⟩
  · rintro c t ⟨new, hh, ht⟩
    exact ⟨new ++ [.changed c], by rw [Run.history_change, hh, List.append_assoc], hc c new t ht⟩

/-- What is listed of a history step by step, and which a program keeps, is not listed of what the program adds. -/
theorem new_of_keeps {w : World σ} {f : List (Happening τ) → List β} (hf : ∀ h k, f (h ++ k) = f h ++ f k)
    {p : Program τ ε α} (hp : ∀ listed, Keeps w (fun t => f t.history = listed) p) (s : Run τ σ) :
    ∃ new, (p.run w s).2.history = s.history ++ new ∧ (p.run w s).2.own = replay s.own new ∧ f new = [] := by
  obtain ⟨new, hh, ho⟩ := run_history w p s
  have hsame : f (p.run w s).2.history = f s.history := hp _ s rfl
  rw [hh, hf] at hsame
  exact ⟨new, hh, ho, List.append_right_eq_self.mp hsame⟩

/-- Whatever is asked, the world answers. -/
theorem run_answers (w : World σ) (p : Program τ ε α) (s : Run τ σ) :
    ∃ new, (p.run w s).2.history = s.history ++ new
      ∧ ∀ r reply, .asked r reply ∈ new → ∃ world, reply = (w.answer r world).1 := by
  refine grows_of_steps (I := fun new _ => ∀ r reply, .asked r reply ∈ new → ∃ world, reply = (w.answer r world).1)
    ?_ ?_ p (by simp)
  · intro r new t hnew r' reply hm
    rcases List.mem_append.mp hm with hm | hm
    · exact hnew r' reply hm
    · cases List.mem_singleton.mp hm
      exact ⟨t.world, rfl⟩
  · intro c new t hnew r' reply hm
    rcases List.mem_append.mp hm with hm | hm
    · exact hnew r' reply hm
    · cases List.mem_singleton.mp hm

/-- The questions by which a run of a program grew were answered by the world. -/
theorem answers_of_questions (w : World σ) (p : Program τ ε α) {s : Run τ σ} {asked : List ((r : Request) × r.Reply)}
    (h : questions (p.run w s).2.history = questions s.history ++ asked) :
    ∀ x ∈ asked, ∃ world, x.2 = (w.answer x.1 world).1 := by
  obtain ⟨new, hh, hnew⟩ := run_answers w p s
  rw [← questions_of_grown hh h]
  exact fun x hx => hnew x.1 x.2 (mem_of_mem_questions hx)

/-! ## Programs that are never aborted -/

/-- Wherever the program is run from, it is not aborted. -/
def NeverCrashes (w : World σ) (p : Program τ ε α) : Prop := ∀ s, (p.run w s).1 ≠ .crashed

section NeverCrashes

variable {w : World σ}

theorem NeverCrashes.finish {ending : Ending ε α} (h : ending ≠ .crashed) :
    NeverCrashes w (Program.finish ending : Program τ ε α) := fun _ => h

theorem NeverCrashes.pure (a : α) : NeverCrashes w (pure a : Program τ ε α) := fun _ => nofun

theorem NeverCrashes.raise (e : ε) : NeverCrashes w (raise e : Program τ ε α) := fun _ => nofun

theorem NeverCrashes.stall : NeverCrashes w (stall : Program τ ε α) := fun _ => nofun

theorem NeverCrashes.memory : NeverCrashes w (memory : Program τ ε τ) := fun _ => nofun

theorem NeverCrashes.request {r : Request} : NeverCrashes w (request r : Program τ ε r.Reply) := fun _ => nofun

theorem NeverCrashes.remember {c : Memory.Change τ} : NeverCrashes w (remember c : Program τ ε Unit) := fun _ => nofun

theorem NeverCrashes.ofExcept (x : Except ε α) : NeverCrashes w (ofExcept x : Program τ ε α) := by
  cases x with
  | ok a => exact pure a
  | error e => exact raise e

theorem NeverCrashes.bind {p : Program τ ε α} {f : α → Program τ ε β} (hp : NeverCrashes w p)
    (hf : ∀ a, NeverCrashes w (f a)) : NeverCrashes w (p >>= f) := by
  intro s
  have hp := hp s
  rw [run_andThen]
  cases hr : p.run w s with
  | mk ending t =>
    rw [hr] at hp
    cases ending with
    | returned a => exact hf a t
    | failed e => nofun
    | crashed => exact absurd rfl hp
    | stalled => nofun

theorem NeverCrashes.attempt {p : Program τ ε α} (hp : NeverCrashes w p) :
    NeverCrashes w (p.attempt : Program τ ε' (Except ε α)) := by
  intro s
  have hp := hp s
  rw [run_attempt]
  cases hr : p.run w s with
  | mk ending t =>
    rw [hr] at hp
    cases ending with
    | crashed => exact absurd rfl hp
    | _ => nofun

theorem NeverCrashes.mapError {p : Program τ ε α} (hp : NeverCrashes w p) (g : ε → ε') :
    NeverCrashes w (p.mapError g) := by
  refine hp.attempt.bind fun result => ?_
  cases result with
  | ok a => exact pure a
  | error e => exact raise (g e)

theorem NeverCrashes.each {f : α → Program τ ε Unit} {as : List α} (hf : ∀ a, NeverCrashes w (f a)) :
    NeverCrashes w (each f as) := by
  induction as with
  | nil => exact pure ()
  | cons a as ih => exact (hf a).bind fun _ => ih

theorem NeverCrashes.collect {f : α → Program τ ε β} {as : List α} (hf : ∀ a, NeverCrashes w (f a)) :
    NeverCrashes w (collect f as) := by
  induction as with
  | nil => exact pure []
  | cons a as ih => exact (hf a).bind fun _ => ih.bind fun _ => pure _

end NeverCrashes

/-! ## What programs ask -/

/-- Every request of a program is one of these, whatever is answered. -/
def Asks (P : Request → Prop) : Program τ ε α → Prop
  | finish _ => True
  | ask r next => P r ∧ ∀ reply, (next reply).Asks P
  | consult next => ∀ own, (next own).Asks P
  | change _ next => next.Asks P

namespace Asks

variable {P P' : Request → Prop}

theorem pure (a : α) : Asks P (pure a : Program τ ε α) := trivial

theorem raise (e : ε) : Asks P (raise e : Program τ ε α) := trivial

theorem crash : Asks P (crash : Program τ ε α) := trivial

theorem stall : Asks P (stall : Program τ ε α) := trivial

theorem memory : Asks P (memory : Program τ ε τ) := fun _ => trivial

theorem remember (c : Memory.Change τ) : Asks P (remember c : Program τ ε Unit) := trivial

theorem request {r : Request} (hr : P r) : Asks P (request r : Program τ ε r.Reply) := ⟨hr, fun _ => trivial⟩

theorem ofExcept (x : Except ε α) : Asks P (ofExcept x : Program τ ε α) := by
  cases x <;> trivial

theorem bind {p : Program τ ε α} {f : α → Program τ ε β} (hp : Asks P p) (hf : ∀ a, Asks P (f a)) :
    Asks P (p >>= f) := by
  show Asks P (p.bind f)
  induction p with
  | finish ending =>
    cases ending with
    | returned a => exact hf a
    | _ => trivial
  | ask r next ih => exact ⟨hp.1, fun reply => ih reply (hp.2 reply)⟩
  | consult next ih => exact fun own => ih own (hp own)
  | change c next ih => exact ih hp

theorem attempt {p : Program τ ε α} (hp : Asks P p) : Asks P (p.attempt : Program τ ε' (Except ε α)) := by
  induction p with
  | finish ending => cases ending <;> trivial
  | ask r next ih => exact ⟨hp.1, fun reply => ih reply (hp.2 reply)⟩
  | consult next ih => exact fun own => ih own (hp own)
  | change c next ih => exact ih hp

theorem mapError {p : Program τ ε α} (hp : Asks P p) (g : ε → ε') : Asks P (p.mapError g) := by
  refine hp.attempt.bind fun x => ?_
  cases x <;> trivial

theorem each {f : α → Program τ ε Unit} (as : List α) (hf : ∀ a, Asks P (f a)) : Asks P (each f as) := by
  induction as with
  | nil => trivial
  | cons a as ih => exact (hf a).bind fun _ => ih

theorem collect {f : α → Program τ ε β} (as : List α) (hf : ∀ a ∈ as, Asks P (f a)) : Asks P (collect f as) := by
  induction as with
  | nil => trivial
  | cons a as ih =>
    refine (hf a List.mem_cons_self).bind fun b => ?_
    exact (ih fun b hb => hf b (List.mem_cons_of_mem a hb)).bind fun _ => pure _

theorem mono {p : Program τ ε α} (hp : Asks P p) (h : ∀ r, P r → P' r) : Asks P' p := by
  induction p with
  | finish ending => trivial
  | ask r next ih => exact ⟨h r hp.1, fun reply => ih reply (hp.2 reply)⟩
  | consult next ih => exact fun own => ih own (hp own)
  | change c next ih => exact ih hp

/-- What these requests and all changes keep is kept by the program. -/
theorem keeps {w : World σ} {I : Run τ σ → Prop} {p : Program τ ε α} (hp : Asks P p)
    (hr : ∀ r s, P r → I s → I (s.ask w r)) (hc : ∀ c s, I s → I (s.change c)) : Keeps w I p := by
  intro s hs
  induction p generalizing s with
  | finish ending => exact hs
  | ask r next ih => exact ih _ (hp.2 _) _ (hr r s hp.1 hs)
  | consult next ih => exact ih _ (hp _) s hs
  | change c next ih => exact ih hp _ (hc c s hs)

end Asks

/-! ## What holds after a program -/

/-- After a run of the program from `s`, `Q` holds of what it returned, or `F` of the error it failed with. Nothing is
said of a program that is aborted or waits for ever. -/
def Ensures (w : World σ) (p : Program τ ε α) (s : Run τ σ) (Q : α → Run τ σ → Prop) (F : ε → Run τ σ → Prop) : Prop :=
  match p.run w s with
  | (.returned a, t) => Q a t
  | (.failed e, t) => F e t
  | _ => True

section Ensures

variable {w : World σ} {s : Run τ σ} {Q : α → Run τ σ → Prop} {F : ε → Run τ σ → Prop}

theorem Ensures.of_returned {p : Program τ ε α} {a : α} {t : Run τ σ} (h : Ensures w p s Q F)
    (hr : p.run w s = (.returned a, t)) : Q a t := by
  rw [Ensures, hr] at h
  exact h

theorem Ensures.of_failed {p : Program τ ε α} {e : ε} {t : Run τ σ} (h : Ensures w p s Q F)
    (hr : p.run w s = (.failed e, t)) : F e t := by
  rw [Ensures, hr] at h
  exact h

/-- What is known of how a run returned. -/
theorem Ensures.of_run {p : Program τ ε α} {a : α} {t : Run τ σ} (hr : p.run w s = (.returned a, t)) (h : Q a t) :
    Ensures w p s Q F := by
  rw [Ensures, hr]
  exact h

/-- What is known of how a run failed. -/
theorem Ensures.of_run_failed {p : Program τ ε α} {e : ε} {t : Run τ σ} (hr : p.run w s = (.failed e, t)) (h : F e t) :
    Ensures w p s Q F := by
  rw [Ensures, hr]
  exact h

theorem Ensures.pure {a : α} (h : Q a s) : Ensures w (pure a) s Q F := h

theorem Ensures.raise {e : ε} (h : F e s) : Ensures w (raise e) s Q F := h

theorem Ensures.crash : Ensures w crash s Q F := trivial

theorem Ensures.stall : Ensures w stall s Q F := trivial

theorem Ensures.ofExcept {x : Except ε α} (hok : ∀ a, x = .ok a → Q a s) (herror : ∀ e, x = .error e → F e s) :
    Ensures w (ofExcept x) s Q F := by
  cases x with
  | ok a => exact hok a rfl
  | error e => exact herror e rfl

theorem Ensures.request {r : Request} {Q : r.Reply → Run τ σ → Prop} (h : Q (s.reply w r) (s.ask w r)) :
    Ensures w (request r) s Q F := h

/-- A program that begins by consulting the memory goes on with the memory that it finds. -/
theorem Ensures.consult {f : τ → Program τ ε α} (h : Ensures w (f s.own) s Q F) :
    Ensures w (Program.memory >>= f) s Q F := h

/-- A program that begins with a request goes on with the answer. -/
theorem Ensures.ask {r : Request} {f : r.Reply → Program τ ε α} (h : Ensures w (f (s.reply w r)) (s.ask w r) Q F) :
    Ensures w (Program.request r >>= f) s Q F := h

/-- A program that begins with a change goes on after it. -/
theorem Ensures.change {c : Memory.Change τ} {f : Unit → Program τ ε α} (h : Ensures w (f ()) (s.change c) Q F) :
    Ensures w (Program.remember c >>= f) s Q F := h

theorem Ensures.mono {p : Program τ ε α} {Q' : α → Run τ σ → Prop} {F' : ε → Run τ σ → Prop}
    (h : Ensures w p s Q F) (hQ : ∀ a t, Q a t → Q' a t) (hF : ∀ e t, F e t → F' e t) : Ensures w p s Q' F' := by
  unfold Ensures at h ⊢
  split
  · rename_i a t hr
    rw [hr] at h
    exact hQ a t h
  · rename_i e t hr
    rw [hr] at h
    exact hF e t h
  · trivial

/-- What never fails can be said to fail in any way. -/
theorem Ensures.unfailing {p : Program τ ε α} (h : Ensures w p s Q fun _ _ => False) : Ensures w p s Q F :=
  h.mono (fun _ _ hQ => hQ) fun _ _ hF => hF.elim

theorem Ensures.bind {p : Program τ ε α} {f : α → Program τ ε β} {R : β → Run τ σ → Prop} (hp : Ensures w p s Q F)
    (hf : ∀ a t, Q a t → Ensures w (f a) t R F) : Ensures w (p >>= f) s R F := by
  unfold Ensures at hp ⊢
  rw [run_andThen]
  cases hr : p.run w s with
  | mk ending t =>
    rw [hr] at hp
    cases ending with
    | returned a => exact hf a t hp
    | failed e => exact hp
    | crashed => trivial
    | stalled => trivial

theorem Ensures.attempt {p : Program τ ε α} {F' : ε' → Run τ σ → Prop} (hp : Ensures w p s Q F) :
    Ensures w p.attempt s (fun x t => match x with
      | .ok a => Q a t
      | .error e => F e t) F' := by
  unfold Ensures at hp ⊢
  rw [run_attempt]
  cases hr : p.run w s with
  | mk ending t =>
    rw [hr] at hp
    cases ending with
    | returned a => exact hp
    | failed e => exact hp
    | crashed => trivial
    | stalled => trivial

theorem Ensures.mapError {p : Program τ ε α} {g : ε → ε'} {F' : ε' → Run τ σ → Prop} (hp : Ensures w p s Q F)
    (hF : ∀ e t, F e t → F' (g e) t) : Ensures w (p.mapError g) s Q F' := by
  refine hp.attempt.bind fun x t h => ?_
  cases x with
  | ok a => exact h
  | error e => exact hF e t h

/-- The loop rule: an invariant of the items done with what they returned. -/
theorem Ensures.collect {f : α → Program τ ε β} {I : List (α × β) → Run τ σ → Prop} (as : List α) (h : I [] s)
    (hf : ∀ done a t, a ∈ as → I done t → Ensures w (f a) t (fun b u => I (done ++ [(a, b)]) u) F) :
    Ensures w (collect f as) s (fun bs t => bs.length = as.length ∧ I (as.zip bs) t) F := by
  induction as generalizing s I with
  | nil => exact Ensures.pure ⟨rfl, h⟩
  | cons a as ih =>
    refine (hf [] a s List.mem_cons_self h).bind fun b t ht => ?_
    -- the rest is a loop of its own, whose invariant has the first item in front
    have hrest := ih (I := fun done => I ((a, b) :: done)) ht fun done a' u hm hu =>
      hf ((a, b) :: done) a' u (List.mem_cons_of_mem _ hm) hu
    refine hrest.bind fun bs u ⟨hlength, hu⟩ => Ensures.pure ⟨?_, hu⟩
    rw [List.length_cons, List.length_cons, hlength]

/-- A kept property holds after whatever the program ensures. -/
theorem Ensures.of_keeps {I : Run τ σ → Prop} {p : Program τ ε α} (h : Keeps w I p) (hs : I s) :
    Ensures w p s (fun _ => I) fun _ => I := by
  have h := h s hs
  unfold Ensures
  cases hr : p.run w s with
  | mk ending t =>
    rw [hr] at h
    cases ending with
    | returned a => exact h
    | failed e => exact h
    | crashed => trivial
    | stalled => trivial

/-- However a program ends, it ends. -/
theorem Ensures.anyhow (p : Program τ ε α) : Ensures w p s (fun _ _ => True) fun _ _ => True :=
  Ensures.of_keeps (I := fun _ => True) (fun _ _ => True.intro) True.intro

/-- What a program ensures, together with what it keeps. -/
theorem Ensures.keeping {I : Run τ σ → Prop} {p : Program τ ε α} (h : Ensures w p s Q F) (hk : Keeps w I p) (hs : I s) :
    Ensures w p s (fun a t => Q a t ∧ I t) F := by
  have hk := hk s hs
  unfold Ensures at h ⊢
  cases hr : p.run w s with
  | mk ending t =>
    rw [hr] at h hk
    cases ending with
    | returned a => exact ⟨h, hk⟩
    | failed e => exact h
    | crashed => trivial
    | stalled => trivial

/-- What a program ensures in two ways. -/
theorem Ensures.and {p : Program τ ε α} {Q' : α → Run τ σ → Prop} {F' : ε → Run τ σ → Prop} (h : Ensures w p s Q F)
    (h' : Ensures w p s Q' F') : Ensures w p s (fun a t => Q a t ∧ Q' a t) fun e t => F e t ∧ F' e t := by
  unfold Ensures at h h' ⊢
  cases hr : p.run w s with
  | mk ending t =>
    rw [hr] at h h'
    cases ending with
    | returned a => exact ⟨h, h'⟩
    | failed e => exact ⟨h, h'⟩
    | crashed => trivial
    | stalled => trivial

/-- What a program ensures, and that it added to the history. -/
theorem Ensures.growing {p : Program τ ε α} (h : Ensures w p s Q F) :
    Ensures w p s (fun a t => Q a t ∧ ∃ new, t.history = s.history ++ new) F := by
  refine h.keeping (I := fun t => ∃ new, t.history = s.history ++ new) ?_ ⟨[], by simp⟩
  rintro t ⟨before, ht⟩
  obtain ⟨new, hh, -⟩ := run_history w p t
  exact ⟨before ++ new, by rw [hh, ht, List.append_assoc]⟩

end Ensures

-- from here on programs are taken apart by these rules alone
attribute [irreducible] Ensures

end Program

end CloudFleet
