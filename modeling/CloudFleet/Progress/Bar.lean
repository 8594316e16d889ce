import CloudFleet.World.Request

/-!
# Progress bars

A bar has a length and a position. It may also carry texts past itself, which it takes as bytes.
-/

set_option autoImplicit false

namespace CloudFleet

/-- How far something has got. -/
structure ProgressBar where
  length : Nat := 0
  position : Nat := 0
deriving DecidableEq

namespace ProgressBar

/-- The bar after a move. A new length begins at the start; finishing goes to the end. -/
def move (b : ProgressBar) : ProgressStep → ProgressBar
  | .length n => ⟨n, 0⟩
  | .advance => { b with position := b.position + 1 }
  | .finish => { b with position := b.length }

/-- How many bytes of a text a bar carries: all of them. -/
def carried (text : String) : Nat := text.utf8ByteSize

end ProgressBar

end CloudFleet
