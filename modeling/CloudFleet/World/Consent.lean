import CloudFleet.World.Program

/-!
# Consent in advance

An operator may consent to everything in advance; a program then goes on without asking, and says so in the log.
-/

set_option autoImplicit false

namespace CloudFleet.Program

variable {τ ε α : Type} [Memory τ]

/-- The program with every question answered by yes. -/
def consenting : Program τ ε α → Program τ ε α
  | finish ending => finish ending
  | ask (.confirm question) next => ask (.log ⟨.info, s!"{question} yes"⟩) fun _ => (next true).consenting
  | ask r next => ask r fun reply => (next reply).consenting
  | consult next => consult fun own => (next own).consenting
  | change c next => change c next.consenting

end CloudFleet.Program
