import CloudFleet.World.Request

/-!
# The inert world

A world in which nothing is there, nothing answers and no time passes.
-/

set_option autoImplicit false

namespace CloudFleet

/-- Why a host is not reached. -/
def noNetwork : String := "Network is unreachable (os error 101)"

/-- The answer of a shell that reaches no host. -/
def ShellCall.unanswered : (c : ShellCall) → c.Reply
  | exec host .. => .after .zero (.error (.unreachable host noNetwork))
  | spawn host .. | copyTo host .. | copyFrom host .. => .error (.unreachable host noNetwork)
  | close _ => .ok ()

/-- The answer of an inert world. -/
def Request.unanswered : (r : Request) → r.Reply
  | cloud call => .error (.unknownRegion call.region)
  | probe .. => .refused noNetwork
  | shell call => call.unanswered
  | file _ => .error ⟨true, "No such file or directory (os error 2)"⟩
  | confirm _ => false
  | now => .ofNanos 0
  | stopwatch => .zero
  | sleep _ => ()
  | random count => List.replicate count 0
  | announce _ => ()
  | log _ => ()
  | progress _ => ()

end CloudFleet
