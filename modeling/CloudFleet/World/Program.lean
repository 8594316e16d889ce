import CloudFleet.World.Request

/-!
# Programs

A `Program` keeps a memory, asks the world and ends in one of four ways. Its memory changes only by the changes that
its type provides (`Memory.apply`), so what a program remembers is always the replay of the changes in its history
(`Program.run_own`), and its history only grows (`Program.run_history`). `Program.run` lets any world answer.
-/

set_option autoImplicit false

namespace CloudFleet

/-- How a program ends. -/
inductive Ending (ε α : Type)
  | returned (value : α)
  /-- It failed, and says why. -/
  | failed (error : ε)
  /-- A number left the range of machine words, and the program was aborted. -/
  | crashed
  /-- It waits for something that does not come. -/
  | stalled

/-- A type of memories, with the ways in which they change. -/
class Memory (τ : Type) where
  Change : Type
  apply : τ → Change → τ

/-- Something that happened in a run. -/
inductive Happening (τ : Type) [Memory τ]
  /-- A request was made and answered. -/
  | asked (request : Request) (reply : request.Reply)
  /-- The memory changed. -/
  | changed (change : Memory.Change τ)

/-- A program with memory `τ` that returns an `α` or fails with an `ε`. -/
inductive Program (τ : Type) [Memory τ] (ε α : Type)
  | finish (ending : Ending ε α)
  | ask (request : Request) (next : request.Reply → Program τ ε α)
  | consult (next : τ → Program τ ε α)
  | change (change : Memory.Change τ) (next : Program τ ε α)

/-- Where a run stands. -/
structure Run (τ σ : Type) [Memory τ] where
  /-- What the program remembers. -/
  own : τ
  /-- The state of the world. -/
  world : σ
  /-- What happened so far, first things first. -/
  history : List (Happening τ)

/-- The memory after what happened. -/
def replay {τ : Type} [Memory τ] (start : τ) (happenings : List (Happening τ)) : τ :=
  happenings.foldl (fun own h => match h with
    | .asked .. => own
    | .changed c => Memory.apply own c) start

namespace Program

variable {τ σ ε ε' α β : Type} [Memory τ]

/-! ## Combining programs -/

/-- The program that goes on with what another returns. -/
def bind : Program τ ε α → (α → Program τ ε β) → Program τ ε β
  | finish (.returned a), f => f a
  | finish (.failed e), _ => finish (.failed e)
  | finish .crashed, _ => finish .crashed
  | finish .stalled, _ => finish .stalled
  | ask r next, f => ask r fun reply => (next reply).bind f
  | consult next, f => consult fun own => (next own).bind f
  | change c next, f => change c (next.bind f)

instance : Monad (Program τ ε) where
  pure a := finish (.returned a)
  bind := bind

/-- Fail. -/
def raise (e : ε) : Program τ ε α := finish (.failed e)

/-- A number is out of range. -/
def crash : Program τ ε α := finish .crashed

/-- Wait for ever. -/
def stall : Program τ ε α := finish .stalled

/-- Make one request. -/
def request (r : Request) : Program τ ε r.Reply := ask r fun reply => finish (.returned reply)

/-- What the program remembers. -/
def memory : Program τ ε τ := consult fun own => finish (.returned own)

/-- Change what the program remembers. -/
def remember (c : Memory.Change τ) : Program τ ε Unit := change c (finish (.returned ()))

/-- The program that returns the error of another where that one fails. -/
def attempt : Program τ ε α → Program τ ε' (Except ε α)
  | finish (.returned a) => finish (.returned (.ok a))
  | finish (.failed e) => finish (.returned (.error e))
  | finish .crashed => finish .crashed
  | finish .stalled => finish .stalled
  | ask r next => ask r fun reply => (next reply).attempt
  | consult next => consult fun own => (next own).attempt
  | change c next => change c next.attempt

/-- A value, or the failure it stands for. -/
def ofExcept : Except ε α → Program τ ε α
  | .ok a => finish (.returned a)
  | .error e => raise e

/-- The program with its error put in other terms. -/
def mapError (f : ε → ε') (p : Program τ ε α) : Program τ ε' α := do
  match ← p.attempt with
  | .ok a => pure a
  | .error e => raise (f e)

/-- A log line. -/
def log (level : Level) (text : String) : Program τ ε Unit := request (.log ⟨level, text⟩)

/-- A line on something that needs attention. -/
def warn (text : String) : Program τ ε Unit := log .warn text

/-- A line on the course of things. -/
def info (text : String) : Program τ ε Unit := log .info text

/-- A line on a detail. -/
def debug (text : String) : Program τ ε Unit := log .debug text

/-- A program for each item, one after the other. -/
def each (f : α → Program τ ε Unit) : List α → Program τ ε Unit
  | [] => pure ()
  | a :: as => do
    f a
    each f as

/-- What a program returns for each item, one after the other. -/
def collect (f : α → Program τ ε β) : List α → Program τ ε (List β)
  | [] => pure []
  | a :: as => do
    let b ← f a
    let bs ← collect f as
    pure (b :: bs)

/-! ## Running -/

/-- The run of a program in a world. -/
def run (w : World σ) : Program τ ε α → Run τ σ → Ending ε α × Run τ σ
  | finish ending, s => (ending, s)
  | ask r next, s =>
    let answer := w.answer r s.world
    (next answer.1).run w ⟨s.own, answer.2, s.history ++ [.asked r answer.1]⟩
  | consult next, s => (next s.own).run w s
  | change c next, s => next.run w ⟨Memory.apply s.own c, s.world, s.history ++ [.changed c]⟩

/-- The history of a run only grows. -/
theorem run_history (w : World σ) (p : Program τ ε α) (s : Run τ σ) :
    ∃ new, (p.run w s).2.history = s.history ++ new ∧ (p.run w s).2.own = replay s.own new := by
  induction p generalizing s with
  | finish ending => exact ⟨[], by simp [run, replay]⟩
  | ask r next ih =>
    obtain ⟨new, hh, ho⟩ := ih (w.answer r s.world).1 ⟨s.own, (w.answer r s.world).2,
      s.history ++ [.asked r (w.answer r s.world).1]⟩
    exact ⟨.asked r (w.answer r s.world).1 :: new, by simpa [run] using hh, by simpa [run, replay] using ho⟩
  | consult next ih => exact ih s.own s
  | change c next ih =>
    obtain ⟨new, hh, ho⟩ := ih ⟨Memory.apply s.own c, s.world, s.history ++ [.changed c]⟩
    exact ⟨.changed c :: new, by simpa [run] using hh, by simpa [run, replay] using ho⟩

/-- One program after another. -/
theorem run_bind (w : World σ) (p : Program τ ε α) (f : α → Program τ ε β) (s : Run τ σ) :
    (p.bind f).run w s = match p.run w s with
      | (.returned a, s) => (f a).run w s
      | (.failed e, s) => (.failed e, s)
      | (.crashed, s) => (.crashed, s)
      | (.stalled, s) => (.stalled, s) := by
  induction p generalizing s with
  | finish ending => cases ending <;> rfl
  | ask r next ih => exact ih _ _
  | consult next ih => exact ih _ _
  | change c next ih => exact ih _

end Program

/-- The requests in a history, with their answers. -/
def exchanges {τ : Type} [Memory τ] (happenings : List (Happening τ)) : List ((r : Request) × r.Reply) :=
  happenings.filterMap fun h => match h with
    | .asked r reply => some ⟨r, reply⟩
    | .changed _ => none

/-- The requests in a history. -/
def requests {τ : Type} [Memory τ] (happenings : List (Happening τ)) : List Request :=
  (exchanges happenings).map Sigma.fst

end CloudFleet
