import CloudFleet.CommandLine.Run
import CloudFleet.Config.Load
import CloudFleet.Rehearsal.Account
import CloudFleet.Rehearsal.Stage

/-!
# Performances

A whole run of the program on a stage, from the words of its command line to its exit.
-/

set_option autoImplicit false

namespace CloudFleet.Rehearsal

/-- How a run of the program ended. -/
structure Performance where
  /-- The exit code. -/
  code : Nat
  /-- What was printed. -/
  printed : String := ""
  /-- What was exchanged once the configuration was there; none if it never was. -/
  account : Option Account := none
  /-- Why it failed. -/
  report : Option Report := none
  /-- The files that it left. -/
  files : FileTree

namespace Performance

/-- How many polls the program may wait. -/
def patience : Nat := 100000

/-- How a wrong command line, or one that asks for help, ends. -/
def usage (files : FileTree) (e : CommandLine.UsageError) : Performance :=
  { code := if e = .helpWanted then 0 else 2, files }

/-- How a run ended, by the end of a program. Code 101 stands for a run that was aborted. -/
def ended (account : Option Account) (files : FileTree) : Ending Report String → Performance
  | .returned printed => { code := 0, printed, account, files }
  | .failed report => { code := 1, account, report := some report, files }
  | .crashed | .stalled => { code := 101, account, files }

/-- Run the program on a stage. `named` is the file of the configuration where the command line names none, and
`plane` the control plane once it is known what is configured. -/
def run (words : List String) (named : Option Path) (around : Ssh.Surroundings)
    (plane : ExperimentConfig → ControlPlane) (stage : Stage Clients) : Performance :=
  match CommandLine.read words with
  | .error e => usage stage.files e
  | .ok line =>
    let load : Program Experiment Report ExperimentConfig := ExperimentConfig.load (line.config <|> named)
    let (ending, loaded) := load.run Stage.world ⟨{}, stage, []⟩
    match ending with
    | .returned config =>
      let stage : Stage Clients := { loaded.world with shell := { config := config.ssh, around }, plane := plane config }
      let (ending, last) := (line.command.carryOut config patience line.nodes).run Stage.world ⟨{}, stage, []⟩
      ended (some (exchanges last.history)) last.world.files ending
    | .failed report => ended none loaded.world.files (.failed report)
    | .crashed | .stalled => ended none loaded.world.files .crashed

end Performance

end CloudFleet.Rehearsal
