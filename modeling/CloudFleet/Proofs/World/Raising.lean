import CloudFleet.Proofs.World.ProgramLogic

/-!
# How programs can fail

`Program.Raises P` says of a program that every error which it fails with is one of `P`, whatever the world answers and
whatever it remembers. It passes through every way of combining programs, and holds of every run
(`Raises.of_failed`). A program that never fails raises the errors of any `P`.
-/

set_option autoImplicit false

namespace CloudFleet.Program

variable {τ σ ε ε' α β : Type} [Memory τ]

/-- Every error that the program fails with is one of these, whatever is answered. -/
def Raises (P : ε → Prop) : Program τ ε α → Prop
  | finish (.returned _) | finish .crashed | finish .stalled => True
  | finish (.failed e) => P e
  | ask _ next => ∀ reply, (next reply).Raises P
  | consult next => ∀ own, (next own).Raises P
  | change _ next => next.Raises P

namespace Raises

variable {P P' : ε → Prop}

theorem pure (a : α) : Raises P (pure a : Program τ ε α) := trivial

theorem raise {e : ε} (he : P e) : Raises P (raise e : Program τ ε α) := he

theorem stall : Raises P (stall : Program τ ε α) := trivial

theorem memory : Raises P (memory : Program τ ε τ) := fun _ => trivial

theorem remember (c : Memory.Change τ) : Raises P (remember c : Program τ ε Unit) := trivial

theorem request (r : Request) : Raises P (request r : Program τ ε r.Reply) := fun _ => trivial

theorem ofExcept {x : Except ε α} (hx : ∀ e, x = .error e → P e) : Raises P (ofExcept x : Program τ ε α) := by
  cases x with
  | ok a => trivial
  | error e => exact hx e rfl

theorem bind {p : Program τ ε α} {f : α → Program τ ε β} (hp : Raises P p) (hf : ∀ a, Raises P (f a)) :
    Raises P (p >>= f) := by
  show Raises P (p.bind f)
  induction p with
  | finish ending =>
    cases ending with
    | returned a => exact hf a
    | failed e => exact hp
    | crashed => trivial
    | stalled => trivial
  | ask r next ih => exact fun reply => ih reply (hp reply)
  | consult next ih => exact fun own => ih own (hp own)
  | change c next ih => exact ih hp

theorem each {f : α → Program τ ε Unit} (as : List α) (hf : ∀ a, Raises P (f a)) : Raises P (each f as) := by
  induction as with
  | nil => trivial
  | cons a as ih => exact (hf a).bind fun _ => ih

theorem collect {f : α → Program τ ε β} (as : List α) (hf : ∀ a, Raises P (f a)) : Raises P (collect f as) := by
  induction as with
  | nil => trivial
  | cons a as ih => exact (hf a).bind fun b => ih.bind fun bs => .pure (b :: bs)

/-- A run fails with one of the errors, if it fails. -/
theorem of_failed {w : World σ} {p : Program τ ε α} {s t : Run τ σ} {e : ε} (hp : Raises P p)
    (hrun : p.run w s = (.failed e, t)) : P e := by
  induction p generalizing s with
  | finish ending =>
    cases hrun
    exact hp
  | ask r next ih => exact ih _ (hp _) hrun
  | consult next ih => exact ih _ (hp _) hrun
  | change c next ih => exact ih hp hrun

theorem ensures {w : World σ} {p : Program τ ε α} (hp : Raises P p) (s : Run τ σ) :
    Ensures w p s (fun _ _ => True) fun e _ => P e := by
  unfold Ensures
  split
  · trivial
  · rename_i e t hrun
    exact hp.of_failed hrun
  · trivial

end Raises

end CloudFleet.Program
