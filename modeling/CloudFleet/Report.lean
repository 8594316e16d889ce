import CloudFleet.Fleet.Error
import CloudFleet.Remote.Outcome
import CloudFleet.World.Program

/-!
# Reports

A report is a cause with the contexts in which it arose. `Report.chain` tells it link by link: the contexts, outermost
first, then the cause and what lies beneath it.
-/

set_option autoImplicit false

namespace CloudFleet

/-- What a report is about in the end. -/
inductive Cause
  | remote (error : RemoteError)
  | fleet (error : FleetError)
  | system (error : SystemError)
  /-- A text is not what it should be. -/
  | unreadable
  | message (text : String)

/-- One link of a chain of causes. -/
inductive Link
  | text (text : String)
  /-- The operating system's own words. -/
  | system (error : SystemError)
  /-- What is wrong with a text. -/
  | unreadable
deriving DecidableEq

/-- A failure with its contexts, the outermost first. -/
structure Report where
  contexts : List String := []
  cause : Cause

namespace Link

/-- The links of a transport error that another error shows. The words of the operating system lie beneath the
failure to start a program; elsewhere they are the error itself, and nothing lies beneath them. -/
def ofTransport (e : TransportError) : List Link :=
  text e.message :: match e with
    | .spawn _ cause => [system cause]
    | _ => []

/-- A link in words. -/
def words : Link → String
  | text s => s
  | system e => e.text
  | unreadable => "invalid text"

end Link

namespace Cause

/-- The links of a cause. -/
def links : Cause → List Link
  | remote e =>
    .text e.message :: match e with
      | .transport _ cause | .copy _ cause => Link.ofTransport cause
      | _ => []
  | fleet (.system e) => [.system e]
  | fleet e => [.text e.message]
  | system e => [.system e]
  | unreadable => [.unreadable]
  | message s => [.text s]

end Cause

namespace Report

/-- A report on a failed operation on the hosts. -/
def ofRemote (e : RemoteError) : Report := { cause := .remote e }

/-- A report on a failed operation on the fleet. -/
def ofFleet (e : FleetError) : Report := { cause := .fleet e }

/-- A report on what the operating system refused. -/
def ofSystem (e : SystemError) : Report := { cause := .system e }

/-- A report in words. -/
def ofMessage (s : String) : Report := { cause := .message s }

/-- A report in a wider context. -/
def within (context : String) (r : Report) : Report := { r with contexts := context :: r.contexts }

/-- The report link by link. -/
def chain (r : Report) : List Link := r.contexts.map Link.text ++ r.cause.links

end Report

namespace Program

variable {τ α : Type} [Memory τ]

/-- Fail with a message. -/
def bail (message : String) : Program τ Report α := raise (.ofMessage message)

/-- An operation on the hosts that reports its failure. -/
def reportRemote (p : Program τ RemoteError α) : Program τ Report α := p.mapError .ofRemote

/-- An operation on the fleet that reports its failure. -/
def reportFleet (p : Program τ FleetError α) : Program τ Report α := p.mapError .ofFleet

/-- A call on the local machine that reports its failure. -/
def reportFile (call : FileCall) : Program τ Report call.Reply := do
  match ← request (.file call) with
  | .ok reply => pure reply
  | .error e => raise (.ofSystem e)

/-- The program with its failures put into a context. -/
def within (context : String) (p : Program τ Report α) : Program τ Report α := p.mapError (·.within context)

end Program

end CloudFleet
