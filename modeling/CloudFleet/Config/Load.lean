import CloudFleet.Config.Record
import CloudFleet.Report

/-!
# Loading the configuration
-/

set_option autoImplicit false

namespace CloudFleet.ExperimentConfig

/-- The configuration in a file, or the defaults where no file is named. -/
def load {τ : Type} [Memory τ] : Option Path → Program τ Report ExperimentConfig
  | none => pure {}
  | some path => do
    let text ← Program.within s!"read config file {path}" (Program.reportFile (.readText path))
    match ExperimentConfig.read? text with
    | some config => pure config
    | none => .raise { contexts := [s!"parse config file {path}"], cause := .unreadable }

end CloudFleet.ExperimentConfig
