import CloudFleet.Fleet.Error
import CloudFleet.Fleet.Registry

/-!
# The list of nodes

A file with one line for each running instance that has an address, in the order of the addresses. It is written only
if its text changes; a file that does not exist counts as empty.
-/

set_option autoImplicit false

namespace CloudFleet.Fleet

variable {τ : Type} [Memory τ]

/-- The addresses of the running instances, in order. -/
def nodeAddresses (f : Fleet) : List String :=
  (f.running.filterMap Instance.address).mergeSort fun a b => decide (a ≤ b)

/-- The text of a node list. -/
def nodeListText (addresses : List String) (port : UInt16) : String :=
  String.join (addresses.map fun address => s!"{address}:{port}\n")

/-- Bring the file of the node list up to date; says whether it was written. -/
def writeNodeList (f : Fleet) (path : Path) (port : UInt16) : Program τ FleetError Bool := do
  let addresses := f.nodeAddresses
  let text := nodeListText addresses port
  let current ← match ← Program.request (.file (.readText path)) with
    | .ok current => pure current
    | .error e => if e.missing then pure "" else .raise (.system e)
  if current = text then pure false
  else
    match ← Program.request (.file (.write path text)) with
    | .error e => .raise (.system e)
    | .ok () =>
      let _ ← Program.request (.announce (.nodeListWritten path addresses.length))
      pure true

end CloudFleet.Fleet
