/-!
# States of an instance

The life cycle runs pending, running, shutting-down, terminated, with the loop running, stopping, stopped, pending.
`InstanceState.parse?` reads a state's name in any mixture of case, with dashes or underscores
(`InstanceState.parse?_name`).
-/

set_option autoImplicit false

namespace CloudFleet

/-- Where an instance is in its life cycle. -/
inductive InstanceState
  | pending
  | running
  | shuttingDown
  | terminated
  | stopping
  | stopped
deriving DecidableEq, Inhabited

namespace InstanceState

/-- Every state. -/
def all : List InstanceState := [pending, running, shuttingDown, terminated, stopping, stopped]

/-- The provider's name of a state. -/
def name : InstanceState → String
  | pending => "pending"
  | running => "running"
  | shuttingDown => "shutting-down"
  | terminated => "terminated"
  | stopping => "stopping"
  | stopped => "stopped"

/-- The name of a state in records and in messages about states. -/
def title : InstanceState → String
  | pending => "Pending"
  | running => "Running"
  | shuttingDown => "ShuttingDown"
  | terminated => "Terminated"
  | stopping => "Stopping"
  | stopped => "Stopped"

/-- A character as it counts in a state's name: ASCII letters in lower case, and an underscore for a dash. -/
def fold (c : Char) : Char := if c = '_' then '-' else c.toLower

/-- The state of a given name. -/
def parse? (s : String) : Option InstanceState :=
  all.find? fun state => s.toList.map fold == state.name.toList

/-- The state of a given title. -/
def ofTitle? (s : String) : Option InstanceState := all.find? fun state => state.title == s

/-- Each state is read back from its name. -/
theorem parse?_name (state : InstanceState) : parse? state.name = some state := by
  cases state <;> decide +kernel

/-- Each state is read back from its title. -/
theorem ofTitle?_title (state : InstanceState) : ofTitle? state.title = some state := by
  cases state <;> decide +kernel

end InstanceState

end CloudFleet
