import CloudFleet.Fleet.Event
import CloudFleet.Remote.Output
import CloudFleet.Time.Instant

/-!
# Requests to the world

All that the program wants from outside, and all that it says, is a `Request`; `Request.Reply` is the type of what
comes back. A `World` is any machine that answers requests: the cloud, the hosts, the local files, the clock, the
operator. Nothing is assumed of it.
-/

set_option autoImplicit false

namespace CloudFleet

/-- What came of an attempt to open a connection. -/
inductive Connection
  | opened
  /-- The attempt failed at once, for a reason. -/
  | refused (reason : String)
  /-- Nothing came of it in the time allowed. -/
  | timedOut
deriving DecidableEq, Inhabited

namespace Connection

/-- Whether the connection was opened. -/
def isOpen (c : Connection) : Bool := c == opened

/-- What the log says of a connection that was not opened. -/
def note? (address : String) (port : UInt16) (limit : Duration) : Connection → Option LogLine
  | opened => none
  | refused reason => some ⟨.debug, s!"probe of {address}:{port} failed: {reason}"⟩
  | timedOut => some ⟨.debug, s!"probe of {address}:{port} timed out after {limit.text}"⟩

end Connection

/-- A move of a progress bar. -/
inductive ProgressStep
  /-- Start again, with a length. -/
  | length (n : Nat)
  | advance
  | finish
deriving DecidableEq

/-- Something the program asks of its surroundings, or tells them. -/
inductive Request
  | cloud (call : CloudCall)
  /-- Try to connect to an address. -/
  | probe (address : String) (port : UInt16) (limit : Duration)
  | shell (call : ShellCall)
  | file (call : FileCall)
  /-- Ask the operator for consent. -/
  | confirm (question : String)
  /-- The time of day. -/
  | now
  /-- A clock that never goes back. -/
  | stopwatch
  | sleep (length : Duration)
  /-- Random words. -/
  | random (count : Nat)
  | announce (event : Event)
  | log (line : LogLine)
  | progress (step : ProgressStep)

/-- What comes back for a request. -/
@[reducible] def Request.Reply : Request → Type
  | cloud call => Except CloudError call.Reply
  | probe .. => Connection
  | shell call => call.Reply
  | file call => Except SystemError call.Reply
  | confirm _ => Bool
  | now => Instant
  | stopwatch => Duration
  | sleep _ => Unit
  | random _ => List UInt64
  | announce _ => Unit
  | log _ => Unit
  | progress _ => Unit

/-- A machine that answers requests, with states `σ`. -/
structure World (σ : Type) where
  answer : (r : Request) → σ → r.Reply × σ

end CloudFleet
