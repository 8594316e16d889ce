import CloudFleet.World.Program

/-!
# Programs within programs

A program whose memory is a part of a larger one can be run within programs on the larger one. What it does to the
world stays the same (`Program.run_embed`).
-/

set_option autoImplicit false

namespace CloudFleet.Program

variable {τ υ σ ε α : Type} [Memory τ] [Memory υ]

/-- The program on a larger memory, by its part and by the changes that a change of the part makes in it. -/
def embed (part : υ → τ) (lift : Memory.Change τ → Memory.Change υ) : Program τ ε α → Program υ ε α
  | finish ending => finish ending
  | ask r next => ask r fun reply => (next reply).embed part lift
  | consult next => consult fun own => (next (part own)).embed part lift
  | change c next => change (lift c) (next.embed part lift)

/-- If lifted changes do to the part what the changes say, the embedded program ends as the program does, and leaves
the world and the part as the program leaves the world and its memory. -/
theorem run_embed (part : υ → τ) (lift : Memory.Change τ → Memory.Change υ)
    (h : ∀ own c, part (Memory.apply own (lift c)) = Memory.apply (part own) c) (w : World σ) (p : Program τ ε α)
    (s : Run υ σ) (t : Run τ σ) (ho : t.own = part s.own) (hw : t.world = s.world) :
    ((p.embed part lift).run w s).1 = (p.run w t).1
      ∧ ((p.embed part lift).run w s).2.world = (p.run w t).2.world
      ∧ part ((p.embed part lift).run w s).2.own = (p.run w t).2.own := by
  induction p generalizing s t with
  | finish ending => exact ⟨rfl, hw.symm, ho.symm⟩
  | ask r next ih =>
    simp only [embed, run, hw]
    exact ih _ _ _ ho rfl
  | consult next ih =>
    simp only [embed, run, ho]
    exact ih _ _ _ ho hw
  | change c next ih =>
    simp only [embed, run]
    exact ih _ _ (by simp only [ho, h]) hw

end CloudFleet.Program
