import CloudFleet.Proofs.World.ProgramLogic

/-!
# The course of a program

A `Course` says what may be exchanged with hosts and local files, step after step, and what comes of it. Each step may
depend on what came of those before, and a step that fails is the last one: what is bound behind it is cut off
(`Course.bind`). A program `Follows` a course if whatever it adds to its history, in any world, is what the course says,
and if it returns what the course says, and returns only then. What is no exchange with hosts or files, the log, the
clock and waiting, is left out of a course.
-/

set_option autoImplicit false

namespace CloudFleet

variable {τ σ ε ε' α β γ : Type} [Memory τ]

/-- A request with its answer. -/
abbrev Exchange := (r : Request) × r.Reply

/-- Whether a request reaches hosts or local files. -/
def Request.reaches : Request → Bool
  | .shell _ | .file _ => true
  | _ => false

/-- What was exchanged with hosts and files. -/
def effects (h : List (Happening τ)) : List Exchange := (exchanges h).filter fun x => x.1.reaches

theorem effects_append (h k : List (Happening τ)) : effects (h ++ k) = effects h ++ effects k := by
  simp [effects]

theorem effects_asked {r : Request} (hr : r.reaches = true) (reply : r.Reply) :
    effects [(.asked r reply : Happening τ)] = [⟨r, reply⟩] := by
  simp [effects, exchanges, hr]

theorem effects_told {r : Request} (hr : r.reaches = false) (reply : r.Reply) :
    effects [(.asked r reply : Happening τ)] = [] := by
  simp [effects, exchanges, hr]

/-- What is read off exchanges with hosts and files is read off a request. -/
theorem filterMap_effects_asked {f : Exchange → Option β} (hf : ∀ e : Exchange, e.1.reaches = false → f e = none)
    (r : Request) (reply : r.Reply) :
    (effects [(.asked r reply : Happening τ)]).filterMap f = (f ⟨r, reply⟩).toList := by
  cases hr : r.reaches with
  | true =>
    rw [effects_asked hr, List.filterMap_cons]
    cases f ⟨r, reply⟩ <;> rfl
  | false =>
    rw [effects_told hr, hf _ hr]
    rfl

/-- What a program returned, if it did. -/
def Ending.value? : Ending ε α → Option α
  | .returned a => some a
  | .failed _ | .crashed | .stalled => none

theorem Ending.value?_eq_some_iff {ending : Ending ε α} {a : α} : ending.value? = some a ↔ ending = .returned a := by
  cases ending <;> simp [value?]

/-! ## Courses -/

/-- What may be exchanged, and what may come of it: a value, or nothing if that was all. -/
def Course (α : Type) := List Exchange → Option α → Prop

namespace Course

/-- Nothing more happens. -/
def stop : Course α := fun h x => h = [] ∧ x = none

/-- Nothing is exchanged for this value. -/
def done (a : α) : Course α := fun h x => h = [] ∧ x = some a

/-- A step, and what follows if it was not the last. -/
def andThen (p : Course α) (f : α → Course β) : Course β := fun h x =>
  (p h none ∧ x = none) ∨ ∃ a before after, h = before ++ after ∧ p before (some a) ∧ f a after x

instance : Monad Course where
  pure := done
  bind := andThen

/-- A request is answered. -/
def ask (r : Request) : Course r.Reply := fun h x => ∃ reply, h = [⟨r, reply⟩] ∧ x = some reply

/-- Nothing is exchanged, and what comes of it, if anything does, is known from elsewhere. -/
def known (x : Option α) : Course α := fun h y => h = [] ∧ y = x

/-- Goes on only where a condition holds. -/
def demand (condition : Bool) : Course Unit := if condition then done () else stop

/-- A course for each item, one after the other. -/
def each (f : α → Course Unit) : List α → Course Unit
  | [] => pure ()
  | a :: as => do
    f a
    each f as

/-- What comes of a course for each item, one after the other. -/
def collect (f : α → Course β) : List α → Course (List β)
  | [] => pure []
  | a :: as => do
    let b ← f a
    let bs ← collect f as
    pure (b :: bs)

/-! ### What a course says -/

variable {p : Course α} {f : α → Course β} {h : List Exchange} {x : Option α}

theorem bind_iff {y : Option β} : (p >>= f) h y
    ↔ (p h none ∧ y = none) ∨ ∃ a before after, h = before ++ after ∧ p before (some a) ∧ f a after y := Iff.rfl

theorem bind_some_iff {b : β} : (p >>= f) h (some b)
    ↔ ∃ a before after, h = before ++ after ∧ p before (some a) ∧ f a after (some b) := by
  rw [bind_iff]
  simp

theorem demand_some_iff {condition : Bool} : demand condition h (some ()) ↔ h = [] ∧ condition = true := by
  unfold demand
  cases condition with
  | true => simp [done]
  | false => simp [stop]

theorem pure_bind (a : α) (f : α → Course β) : (pure a >>= f) = f a := by
  funext h y
  refine propext ⟨?_, fun hf => Or.inr ⟨a, [], h, rfl, ⟨rfl, rfl⟩, hf⟩⟩
  rintro (⟨⟨-, hnone⟩, -⟩ | ⟨b, before, after, rfl, ⟨rfl, hb⟩, hf⟩)
  · cases hnone
  · cases hb
    exact hf

/-- Nothing follows the end. -/
theorem stop_bind (f : α → Course β) : (stop >>= f) = stop := by
  funext h y
  refine propext ⟨?_, fun hstop => Or.inl ⟨⟨hstop.1, rfl⟩, hstop.2⟩⟩
  rintro (⟨⟨rfl, -⟩, rfl⟩ | ⟨_, _, _, -, ⟨-, hnone⟩, -⟩)
  · exact ⟨rfl, rfl⟩
  · cases hnone

/-- Behind a condition goes on what it lets through. -/
theorem demand_bind (condition : Bool) (f : Unit → Course β) :
    (demand condition >>= f) = if condition then f () else stop := by
  cases condition with
  | true => exact pure_bind () f
  | false => exact stop_bind f

/-- What is made of something known is known as well. -/
theorem known_map_bind (x : Option α) (g : α → β) (f : β → Course γ) :
    (known (x.map g) >>= f) = known x >>= fun a => f (g a) := by
  cases x with
  | some a => exact (pure_bind (g a) f).trans (pure_bind a fun a => f (g a)).symm
  | none => exact (stop_bind f).trans (stop_bind fun a => f (g a)).symm

theorem bind_pure (p : Course α) : (p >>= pure) = p := by
  funext h x
  refine propext ⟨?_, fun hp => ?_⟩
  · rintro (⟨hp, rfl⟩ | ⟨a, before, after, rfl, hp, ⟨rfl, rfl⟩⟩)
    · exact hp
    · rw [List.append_nil]
      exact hp
  · cases x with
    | none => exact Or.inl ⟨hp, rfl⟩
    | some a => exact Or.inr ⟨a, h, [], (List.append_nil h).symm, hp, rfl, rfl⟩

/-- Steps can be grouped in any way. -/
theorem bind_assoc (p : Course α) (f : α → Course β) (g : β → Course γ) :
    (p >>= f) >>= g = p >>= fun a => f a >>= g := by
  funext h z
  refine propext ⟨?_, ?_⟩
  · rintro (⟨hstop | ⟨a, before, after, rfl, hp, hf⟩, rfl⟩ | ⟨b, early, late, rfl, hpf, hg⟩)
    · exact Or.inl ⟨hstop.1, rfl⟩
    · exact Or.inr ⟨a, before, after, rfl, hp, Or.inl ⟨hf, rfl⟩⟩
    · obtain ⟨a, before, after, rfl, hp, hf⟩ := bind_some_iff.mp hpf
      exact Or.inr ⟨a, before, after ++ late, by rw [List.append_assoc], hp, Or.inr ⟨b, after, late, rfl, hf, hg⟩⟩
  · rintro (⟨hp, rfl⟩ | ⟨a, before, after, rfl, hp, ⟨hf, rfl⟩ | ⟨b, middle, late, rfl, hf, hg⟩⟩)
    · exact Or.inl ⟨Or.inl ⟨hp, rfl⟩, rfl⟩
    · exact Or.inl ⟨Or.inr ⟨a, before, after, rfl, hp, hf⟩, rfl⟩
    · exact Or.inr ⟨b, before ++ middle, late, by rw [List.append_assoc],
        Or.inr ⟨a, before, middle, rfl, hp, hf⟩, hg⟩

/-- All that is exchanged is of one kind. -/
def Only (kind : Exchange → Prop) (p : Course α) : Prop := ∀ h x, p h x → ∀ e ∈ h, kind e

section Only

variable {kind : Exchange → Prop}

theorem Only.stop : Only kind (stop : Course α) := by
  rintro h x ⟨rfl, -⟩
  nofun

theorem Only.pure (a : α) : Only kind (pure a : Course α) := by
  rintro h x ⟨rfl, -⟩
  nofun

theorem Only.known (x : Option α) : Only kind (known x) := by
  rintro h y ⟨rfl, -⟩
  nofun

theorem Only.demand (condition : Bool) : Only kind (demand condition) := by
  unfold Course.demand
  cases condition with
  | true => exact Only.pure ()
  | false => exact Only.stop

theorem Only.ask {r : Request} (hr : ∀ reply, kind ⟨r, reply⟩) : Only kind (ask r) := by
  rintro h x ⟨reply, rfl, -⟩ e he
  rw [List.mem_singleton.mp he]
  exact hr reply

theorem Only.bind (hp : Only kind p) (hf : ∀ a, Only kind (f a)) : Only kind (p >>= f) := by
  rintro h y (⟨hstop, -⟩ | ⟨a, before, after, rfl, hbefore, hafter⟩) e he
  · exact hp h none hstop e he
  · rcases List.mem_append.mp he with he | he
    · exact hp before _ hbefore e he
    · exact hf a after y hafter e he

theorem Only.each {g : α → Course Unit} (hg : ∀ a, Only kind (g a)) (as : List α) : Only kind (each g as) := by
  induction as with
  | nil => exact Only.pure ()
  | cons a as ih => exact (hg a).bind fun _ => ih

theorem Only.collect (hf : ∀ a, Only kind (f a)) (as : List α) : Only kind (collect f as) := by
  induction as with
  | nil => exact Only.pure []
  | cons a as ih => exact (hf a).bind fun _ => ih.bind fun _ => Only.pure _

end Only

/-- What is exchanged in two steps is exchanged in the first one, or after it is through. -/
theorem locate {before after : List Exchange} {e : Exchange} {y : Option β} (h : (p >>= f) (before ++ e :: after) y) :
    (∃ x rest, p (before ++ e :: rest) x)
      ∨ ∃ a early late, before = early ++ late ∧ p early (some a) ∧ f a (late ++ e :: after) y := by
  rcases h with ⟨hp, -⟩ | ⟨a, first, second, hsplit, hp, hf⟩
  · exact Or.inl ⟨none, after, hp⟩
  · rcases List.append_eq_append_iff.mp hsplit with ⟨middle, rfl, hrest⟩ | ⟨late, rfl, rfl⟩
    · cases middle with
      | nil =>
        rw [List.append_nil] at hp
        rw [List.nil_append] at hrest
        exact Or.inr ⟨a, before, [], by simp, hp, hrest ▸ hf⟩
      | cons e' middle =>
        rw [List.cons_append] at hrest
        obtain ⟨rfl, -⟩ := List.cons.inj hrest
        exact Or.inl ⟨some a, middle, hp⟩
    · exact Or.inr ⟨a, first, late, rfl, hp, hf⟩

/-- What the first of two steps does not exchange is exchanged after it is through. -/
theorem passed {kind : Exchange → Prop} {before after : List Exchange} {e : Exchange} {y : Option β}
    (hp : Only (fun e => ¬kind e) p) (h : (p >>= f) (before ++ e :: after) y) (he : kind e) :
    ∃ a early late, before = early ++ late ∧ p early (some a) ∧ f a (late ++ e :: after) y := by
  rcases locate h with ⟨x, rest, hfirst⟩ | hlater
  · exact absurd he (hp _ x hfirst e (by simp))
  · exact hlater

/-- Where a loop of requests is through, there is an answer to each of them, in order. -/
theorem collect_some (exchange : α → β → Exchange)
    (hf : ∀ a h (x : Option β), f a h x → ∃ b, h = [exchange a b] ∧ x = some b) {as : List α} {bs : List β}
    (h : List Exchange) (hc : collect f as h (some bs)) :
    bs.length = as.length ∧ h = (as.zip bs).map fun x => exchange x.1 x.2 := by
  induction as generalizing bs h with
  | nil =>
    obtain ⟨rfl, hbs⟩ := hc
    cases hbs
    exact ⟨rfl, rfl⟩
  | cons a as ih =>
    obtain ⟨b, before, after, rfl, hfirst, hrest⟩ := bind_some_iff.mp hc
    obtain ⟨later, middle, last, rfl, hlater, rfl, hbs⟩ := bind_some_iff.mp hrest
    cases hbs
    obtain ⟨b', rfl, hb'⟩ := hf a before _ hfirst
    cases hb'
    obtain ⟨hlength, rfl⟩ := ih _ hlater
    exact ⟨by rw [List.length_cons, hlength, List.length_cons], by simp⟩

/-- Where none of the steps of a loop is the last one, the loop is through. -/
theorem not_collect_none (hf : ∀ a h, ¬f a h none) (as : List α) (h : List Exchange) : ¬collect f as h none := by
  induction as generalizing h with
  | nil =>
    rintro ⟨-, hnone⟩
    cases hnone
  | cons a as ih =>
    rintro (⟨hfirst, -⟩ | ⟨b, before, after, rfl, -, hrest⟩)
    · exact hf a _ hfirst
    · rcases hrest with ⟨hrest, -⟩ | ⟨bs, _, _, rfl, -, -, hnone⟩
      · exact ih _ hrest
      · cases hnone

end Course

/-! ## Programs that follow a course -/

/-- What the program exchanges is what the course says, and it returns exactly where the course is through, with a
value that stands for that of the course and a memory as stated. -/
def Follows (w : World σ) (p : Program τ ε α) (s : Run τ σ) (C : Course β) (value : α → Option β) (Q : τ → Prop) :
    Prop :=
  ∃ new, (p.run w s).2.history = s.history ++ new ∧ C (effects new) ((p.run w s).1.value?.bind value)
    ∧ ∀ b ∈ (p.run w s).1.value?.bind value, Q (p.run w s).2.own

namespace Follows

variable {w : World σ} {s : Run τ σ} {Q R : τ → Prop}

theorem pure {C : Course β} {value : α → Option β} {a : α} (hC : C [] (value a)) (hs : Q s.own) :
    Follows w (pure a : Program τ ε α) s C value Q := ⟨[], by simp, hC, fun _ _ => hs⟩

/-- What ends without a value, and exchanges nothing. -/
theorem finish {C : Course β} {value : α → Option β} {e : Ending ε α} (he : e.value? = none) (hC : C [] none) :
    Follows w (Program.finish e) s C value Q := by
  refine ⟨[], by simp [Program.run], ?_, ?_⟩
  · show C [] (e.value?.bind value)
    rw [he]
    exact hC
  · intro b hb
    have hb : b ∈ e.value?.bind value := hb
    rw [he] at hb
    cases hb

/-- A value that stands for none. -/
theorem nothing {C : Course β} {value : α → Option β} {a : α} (ha : value a = none) (hC : C [] none) :
    Follows w (Pure.pure a : Program τ ε α) s C value Q := by
  refine ⟨[], by simp, ?_, ?_⟩
  · show C [] (value a)
    rw [ha]
    exact hC
  · intro b hb
    have hb : b ∈ value a := hb
    rw [ha] at hb
    cases hb

/-- What is known of a run that is the same. -/
theorem of_run_eq {p q : Program τ ε α} {C : Course β} {value : α → Option β} (hrun : p.run w s = q.run w s)
    (h : Follows w q s C value Q) : Follows w p s C value Q := by
  unfold Follows
  rw [hrun]
  exact h

theorem raise {value : α → Option β} (e : ε) : Follows w (Program.raise e) s Course.stop value Q :=
  finish rfl ⟨rfl, rfl⟩

theorem ask {r : Request} (hr : r.reaches = true) (hs : Q s.own) :
    Follows w (Program.request r : Program τ ε r.Reply) s (Course.ask r) some Q :=
  ⟨[.asked r (s.reply w r)], rfl, ⟨s.reply w r, effects_asked hr _, rfl⟩, fun _ _ => hs⟩

/-- One program after another: if the first one is through, the second one goes on from where it ended, and else
nothing more happens. -/
theorem bind_run {p : Program τ ε α} {C : Course β} {value : α → Option β} {δ : Type} {f : α → Program τ ε δ}
    {D : β → Course γ} {value' : δ → Option γ} (hp : Follows w p s C value Q)
    (hf : ∀ a b t h, p.run w s = (.returned a, t) → value a = some b → C h (some b) → Q t.own →
      Follows w (f a) t (D b) value' R)
    (hnone : ∀ a t, value a = none → Follows w (f a) t Course.stop value' R) :
    Follows w (p >>= f) s (C >>= D) value' R := by
  obtain ⟨new, hh, hC, hQ⟩ := hp
  unfold Follows
  rw [Program.run_andThen]
  cases hr : p.run w s with
  | mk ending t =>
    rw [hr] at hh hC hQ
    cases ending with
    | returned a =>
      cases hv : value a with
      | none =>
        obtain ⟨later, hh', ⟨hlater, hstop⟩, -⟩ := hnone a t hv
        have hnone' : ((f a).run w t).1.value?.bind value' = none := hstop
        refine ⟨new ++ later, ?_, ?_, ?_⟩
        · rw [hh', hh, List.append_assoc]
        · have hC' : C (effects new) none := by
            simpa [Ending.value?, hv] using hC
          rw [effects_append, hlater, List.append_nil]
          exact Or.inl ⟨hC', hnone'⟩
        · rw [hnone']
          nofun
      | some b =>
        have hC' : C (effects new) (some b) := by
          simpa [Ending.value?, hv] using hC
        have hQ' : Q t.own := hQ b (by simp [Ending.value?, hv])
        obtain ⟨later, hh', hD, hR⟩ := hf a b t _ hr hv hC' hQ'
        refine ⟨new ++ later, ?_, ?_, hR⟩
        · rw [hh', hh, List.append_assoc]
        · rw [effects_append]
          exact Or.inr ⟨b, _, _, rfl, hC', hD⟩
    | failed e => exact ⟨new, hh, Or.inl ⟨hC, rfl⟩, nofun⟩
    | crashed => exact ⟨new, hh, Or.inl ⟨hC, rfl⟩, nofun⟩
    | stalled => exact ⟨new, hh, Or.inl ⟨hC, rfl⟩, nofun⟩

/-- One program after another, wherever the first one ends. -/
theorem bind {p : Program τ ε α} {C : Course β} {value : α → Option β} {δ : Type} {f : α → Program τ ε δ}
    {D : β → Course γ} {value' : δ → Option γ} (hp : Follows w p s C value Q)
    (hf : ∀ a b t h, value a = some b → C h (some b) → Q t.own → Follows w (f a) t (D b) value' R)
    (hnone : ∀ a t, value a = none → Follows w (f a) t Course.stop value' R) :
    Follows w (p >>= f) s (C >>= D) value' R :=
  hp.bind_run (fun a b t h _ => hf a b t h) hnone

/-- One program after another, where the first one is through if it returns. -/
theorem andThen_run {p : Program τ ε α} {C : Course α} {δ : Type} {f : α → Program τ ε δ} {D : α → Course γ}
    {value' : δ → Option γ} (hp : Follows w p s C some Q)
    (hf : ∀ a t h, p.run w s = (.returned a, t) → C h (some a) → Q t.own → Follows w (f a) t (D a) value' R) :
    Follows w (p >>= f) s (C >>= D) value' R :=
  hp.bind_run (fun a b t h hr hv hC ht => by cases hv; exact hf a t h hr hC ht) fun a t hv => by cases hv

theorem andThen {p : Program τ ε α} {C : Course α} {δ : Type} {f : α → Program τ ε δ} {D : α → Course γ}
    {value' : δ → Option γ} (hp : Follows w p s C some Q)
    (hf : ∀ a t h, C h (some a) → Q t.own → Follows w (f a) t (D a) value' R) :
    Follows w (p >>= f) s (C >>= D) value' R :=
  hp.andThen_run fun a t h _ => hf a t h

/-- A program that exchanges nothing before another. -/
theorem skip {p : Program τ ε α} {δ : Type} {f : α → Program τ ε δ} {C : Course γ} {value : δ → Option γ}
    (hp : Follows w p s (Pure.pure ()) (fun _ => some ()) Q) (hf : ∀ a t, Q t.own → Follows w (f a) t C value R) :
    Follows w (p >>= f) s C value R := by
  obtain ⟨new, hh, ⟨hnone, hsome⟩, hQ⟩ := hp
  unfold Follows
  rw [Program.run_andThen]
  cases hr : p.run w s with
  | mk ending t =>
    rw [hr] at hh hsome hQ
    cases ending with
    | returned a =>
      obtain ⟨later, hh', hC, hR⟩ := hf a t (hQ () rfl)
      refine ⟨new ++ later, ?_, ?_, hR⟩
      · rw [hh', hh, List.append_assoc]
      · rw [effects_append, hnone, List.nil_append]
        exact hC
    | failed e => cases hsome
    | crashed => cases hsome
    | stalled => cases hsome

/-- A request that reaches neither hosts nor files. -/
theorem tell {r : Request} (hr : r.reaches = false) (hs : Q s.own) :
    Follows w (Program.request r : Program τ ε r.Reply) s (Pure.pure ()) (fun _ => some ()) Q :=
  ⟨[.asked r (s.reply w r)], rfl, ⟨effects_told hr _, rfl⟩, fun _ _ => hs⟩

/-- A program that begins with a value goes on with it. -/
theorem goOn {δ : Type} {a : α} {f : α → Program τ ε δ} {C : Course γ} {value : δ → Option γ}
    (h : Follows w (f a) s C value Q) : Follows w (Pure.pure a >>= f) s C value Q := h

/-- A request that reaches neither hosts nor files, and what is made of its answer. -/
theorem told {r : Request} {f : r.Reply → Program τ ε α} {C : Course β} {value : α → Option β}
    (hr : r.reaches = false) (h : Follows w (f (s.reply w r)) (s.ask w r) C value Q) :
    Follows w (Program.request r >>= f) s C value Q := by
  obtain ⟨new, hh, hC, hQ⟩ := h
  refine ⟨.asked r (s.reply w r) :: new, ?_, ?_, hQ⟩
  · have hrun : ((Program.request r >>= f).run w s).2 = ((f (s.reply w r)).run w (s.ask w r)).2 := rfl
    rw [hrun, hh, Run.history_ask, List.append_assoc]
    rfl
  · rw [← List.singleton_append, effects_append, effects_told hr]
    exact hC

theorem consult {f : τ → Program τ ε α} {C : Course β} {value : α → Option β} (h : Follows w (f s.own) s C value Q) :
    Follows w (Program.memory >>= f) s C value Q := h

theorem change {c : Memory.Change τ} {f : Unit → Program τ ε α} {C : Course β} {value : α → Option β}
    (h : Follows w (f ()) (s.change c) C value Q) : Follows w (Program.remember c >>= f) s C value Q := by
  obtain ⟨new, hh, hC, hQ⟩ := h
  refine ⟨.changed c :: new, ?_, hC, hQ⟩
  have hrun : ((Program.remember c >>= f).run w s).2 = ((f ()).run w (s.change c)).2 := rfl
  rw [hrun, hh, Run.history_change, List.append_assoc]
  rfl

theorem attempt {p : Program τ ε α} {C : Course β} {value : α → Option β} (h : Follows w p s C value Q) :
    Follows w (p.attempt : Program τ ε' (Except ε α)) s C (fun x => x.toOption.bind value) Q := by
  obtain ⟨new, hh, hC, hQ⟩ := h
  unfold Follows
  rw [Program.run_attempt]
  cases hr : p.run w s with
  | mk ending t =>
    rw [hr] at hh hC hQ
    cases ending <;> exact ⟨new, hh, hC, hQ⟩

/-- A program that does not fail returns what it would have returned. -/
theorem unfailing {p : Program τ ε α} {C : Course β} {value : α → Option β} {value' : Except ε α → Option β}
    (h : Follows w p s C value Q) (hfail : Program.Ensures w p s (fun _ _ => True) fun _ _ => False)
    (hvalue : ∀ a, value' (.ok a) = value a) :
    Follows w (p.attempt : Program τ ε' (Except ε α)) s C value' Q := by
  obtain ⟨new, hh, hC, hQ⟩ := h
  unfold Follows
  rw [Program.run_attempt]
  cases hr : p.run w s with
  | mk ending t =>
    rw [hr] at hh hC hQ
    cases ending with
    | returned a =>
      refine ⟨new, hh, ?_, ?_⟩
      · show C (effects new) (value' (.ok a))
        rw [hvalue]
        exact hC
      · show ∀ b ∈ value' (.ok a), Q t.own
        rw [hvalue]
        exact hQ
    | failed e => exact (hfail.of_failed hr).elim
    | crashed => exact ⟨new, hh, hC, hQ⟩
    | stalled => exact ⟨new, hh, hC, hQ⟩

/-- Something else is made of the value. -/
theorem map {p : Program τ ε α} {C : Course β} {value : α → Option β} (h : Follows w p s C value Q) (g : β → γ) :
    Follows w p s (C >>= fun b => Pure.pure (g b)) (fun a => (value a).map g) Q := by
  obtain ⟨new, hh, hC, hQ⟩ := h
  unfold Follows
  have hmap : (p.run w s).1.value?.bind (fun a => (value a).map g) = ((p.run w s).1.value?.bind value).map g := by
    cases (p.run w s).1.value? <;> rfl
  rw [hmap]
  refine ⟨new, hh, ?_, ?_⟩
  · cases hv : (p.run w s).1.value?.bind value with
    | none => exact Or.inl ⟨hv ▸ hC, rfl⟩
    | some b => exact Or.inr ⟨b, _, [], (List.append_nil _).symm, hv ▸ hC, rfl, rfl⟩
  · intro b hb
    obtain ⟨b', hb', -⟩ := Option.map_eq_some_iff.mp hb
    exact hQ b' hb'

theorem mapError {p : Program τ ε α} {C : Course β} {value : α → Option β} (h : Follows w p s C value Q)
    (g : ε → ε') : Follows w (p.mapError g) s C value Q := by
  obtain ⟨new, hh, hC, hQ⟩ := h
  unfold Follows
  rw [Program.mapError, Program.run_andThen, Program.run_attempt]
  cases hr : p.run w s with
  | mk ending t =>
    rw [hr] at hh hC hQ
    cases ending <;> exact ⟨new, hh, hC, hQ⟩

theorem mono {p : Program τ ε α} {C : Course β} {value : α → Option β} (h : Follows w p s C value Q)
    (hQ : ∀ own, Q own → R own) : Follows w p s C value R := by
  obtain ⟨new, hh, hC, hown⟩ := h
  exact ⟨new, hh, hC, fun b hb => hQ _ (hown b hb)⟩

/-- A program that asks neither hosts nor files exchanges nothing, whatever it returns. -/
theorem known {p : Program τ ε α} (hp : p.Asks fun r => r.reaches = false) (hQ : Program.Keeps w (fun t => Q t.own) p)
    (hs : Q s.own) : Follows w p s (Course.known (p.run w s).1.value?) some Q := by
  have hquiet : Program.Keeps w (fun t : Run τ σ => ∃ new, t.history = s.history ++ new ∧ effects new = []) p := by
    refine hp.keeps ?_ ?_
    · rintro r t hr ⟨new, hh, hnone⟩
      refine ⟨new ++ [.asked r (t.reply w r)], by rw [Run.history_ask, hh, List.append_assoc], ?_⟩
      rw [effects_append, hnone, effects_told hr, List.append_nil]
    · rintro c t ⟨new, hh, hnone⟩
      refine ⟨new ++ [.changed c], by rw [Run.history_change, hh, List.append_assoc], ?_⟩
      rw [effects_append, hnone]
      rfl
  obtain ⟨new, hh, hnone⟩ := hquiet s ⟨[], (List.append_nil _).symm, rfl⟩
  exact ⟨new, hh, ⟨hnone, by cases (p.run w s).1.value? <;> rfl⟩, fun _ _ => hQ s hs⟩

/-- A condition that holds. -/
theorem demanded {p : Program τ ε α} {condition : Bool} {C : Course γ} {value : α → Option γ}
    (hc : condition = true) (h : Follows w p s C value Q) :
    Follows w p s (Course.demand condition >>= fun _ => C) value Q := by
  obtain ⟨new, hh, hC, hQ⟩ := h
  refine ⟨new, hh, Or.inr ⟨(), [], _, rfl, ?_, hC⟩, hQ⟩
  rw [hc]
  exact ⟨rfl, rfl⟩

theorem each {f : α → Program τ ε Unit} {g : α → Course Unit} (as : List α) (hs : Q s.own)
    (hf : ∀ a t, Q t.own → Follows w (f a) t (g a) some Q) :
    Follows w (Program.each f as) s (Course.each g as) some Q := by
  induction as generalizing s with
  | nil => exact pure ⟨rfl, rfl⟩ hs
  | cons a as ih => exact (hf a s hs).andThen fun _ t _ _ ht => ih ht

/-- A loop of programs that exchange nothing. -/
theorem tellEach {f : α → Program τ ε Unit} (as : List α) (hs : Q s.own)
    (hf : ∀ a t, Q t.own → Follows w (f a) t (Pure.pure ()) (fun _ => some ()) Q) :
    Follows w (Program.each f as) s (Pure.pure ()) (fun _ => some ()) Q := by
  induction as generalizing s with
  | nil => exact pure ⟨rfl, rfl⟩ hs
  | cons a as ih => exact (hf a s hs).skip fun _ t ht => ih ht

theorem collect {δ : Type} {f : δ → Program τ ε β} {g : α → Course β} (k : α → δ) (as : List α) (hs : Q s.own)
    (hf : ∀ a t, Q t.own → Follows w (f (k a)) t (g a) some Q) :
    Follows w (Program.collect f (as.map k)) s (Course.collect g as) some Q := by
  induction as generalizing s with
  | nil => exact pure ⟨rfl, rfl⟩ hs
  | cons a as ih =>
    refine (hf a s hs).andThen fun b t _ _ ht => ?_
    exact (ih ht).andThen fun bs u _ _ hu => pure ⟨rfl, rfl⟩ hu

end Follows

end CloudFleet
