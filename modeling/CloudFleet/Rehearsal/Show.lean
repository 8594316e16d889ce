import CloudFleet.Config.Basic
import CloudFleet.Fleet.Registry
import CloudFleet.Rehearsal.Account
import CloudFleet.Rehearsal.Stage
import CloudFleet.Remote.Session

/-!
# Shows

A show is a stage with what the programs on it remember: a fleet, a session, and the images known to a gateway of its
own. Programs are played on it one after the other, and nothing is lost between them.
-/

set_option autoImplicit false

namespace CloudFleet.Rehearsal

open Json

/-- A stage with what is remembered from program to program. -/
structure Show (η : Type) where
  stage : Stage η
  fleet : Fleet := {}
  session : Session := {}
  /-- The images that were looked up directly. -/
  gate : Fleet := {}
  /-- Subsets that were set aside, by name. -/
  saved : List (String × Subset) := []
  config : FleetConfig := {}
  bench : BenchConfig := {}
  /-- How many descriptions of instances are answered per scene. -/
  limit : Nat := 12
  /-- All exchanges before this scene. -/
  past : Account := []

/-- What came of a scene, what was exchanged in it, and the show after it. -/
abbrev Played (η : Type) := Json × Account × Show η

/-- What came of a program, as a value; none if it was aborted. -/
def told {ε α : Type} (error : ε → Json) (value : α → Json) : Ending ε α → Option Json
  | .returned a => some (value a)
  | .failed e => some (error e)
  | .crashed => none
  | .stalled => some (foreign "Stalled")

namespace Show

variable {η : Type} [Shell η]

/-- How many polls a program may wait. -/
def patience : Nat := 100000

/-- A scene in which nothing is exchanged. -/
def quiet (out : Json) (s : Show η) : Option (Played η) := some (out, [], s)

/-- Play a program whose memory is part of the show. -/
def play {τ ε α : Type} [Memory τ] (memory : Show η → τ) (store : τ → Show η → Show η) (error : ε → Json)
    (value : α → Json) (p : Program τ ε α) (s : Show η) : Option (Played η) :=
  let (ending, run) := p.run Stage.world ⟨memory s, s.stage, []⟩
  (told error value ending).map fun out =>
    (out, exchanges run.history, { store run.own s with stage := run.world })

/-- Play a program on the fleet. -/
def onFleet {ε α : Type} : (ε → Json) → (α → Json) → Program Fleet ε α → Show η → Option (Played η) :=
  play Show.fleet fun fleet s => { s with fleet }

/-- Play a program on the gateway. -/
def onGate {ε α : Type} : (ε → Json) → (α → Json) → Program Fleet ε α → Show η → Option (Played η) :=
  play Show.gate fun gate s => { s with gate }

/-- Play a program on the session. -/
def onSession {ε α : Type} : (ε → Json) → (α → Json) → Program Session ε α → Show η → Option (Played η) :=
  play Show.session fun session s => { s with session }

/-- The show with a change of its stage. -/
def onStage (f : Stage η → Stage η) (s : Show η) : Show η := { s with stage := f s.stage }

/-- The show with a change of its control plane. -/
def onPlane (f : ControlPlane → ControlPlane) : Show η → Show η := onStage fun t => { t with plane := f t.plane }

/-- The show with a change of its hosts. -/
def onHosts (f : η → η) : Show η → Show η := onStage fun t => { t with shell := f t.shell }

/-- The show with a change of its files. -/
def onFiles (f : FileTree → FileTree) : Show η → Show η := onStage fun t => { t with files := f t.files }

/-- The show with some addresses blocked and others no longer. -/
def onNetwork (block unblock : List String) : Show η → Show η := onStage fun t => { t with
  network := match t.network with
    | .allBut blocked => .allBut ((blocked ++ block).filter fun a => !unblock.contains a)
    | other => other }

/-- The show with the answer of the operator. -/
def answering (consent : Bool) : Show η → Show η := onStage fun t => { t with consent }

/-- The show with hosts bound. -/
def bound (hosts : List (String × String)) (s : Show η) : Show η := { s with session := s.session.apply (.bound hosts) }

/-- The show at the beginning of a scene. -/
def opening (s : Show η) : Show η := s.onPlane fun p => { p with allowance := some s.limit }

/-- The content of a file as a value. -/
def content (s : Show η) (path : Path) : Json :=
  match s.stage.files.read path with
  | .ok text => ofText text
  | .error _ => .null

/-- The milliseconds slept between two shows. -/
def sleptSince (before after : Show η) : Nat := (Duration.sub after.stage.clock before.stage.clock).millis

/-- Scenes one after the other, each with its answer. -/
def scenes (scene : Json → Show η → Option (Played η))
    (tell : Json → Json → Show η → Account → Show η → Json) : List Json → Show η → Option (List Json × Show η)
  | [], s => some ([], s)
  | j :: rest, s => do
    let (out, xs, after) ← scene j s.opening
    let (more, last) ← scenes scene tell rest { after with past := after.past ++ xs }
    some (tell j out s xs after :: more, last)

end Show

end CloudFleet.Rehearsal
