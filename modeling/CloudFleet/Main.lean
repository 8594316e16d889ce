import CloudFleet.CommandLine.Run
import CloudFleet.Config.Load
import CloudFleet.World.Inert
import Std.Time

/-!
# The program

Reads the command line, carries the command out on this machine and exits with a code. Files, clocks, random words and
the operator are those of the machine; the cloud and the hosts are out of reach.
-/

set_option autoImplicit false

namespace CloudFleet.Machine

/-- Why the machine refused something. -/
def refusal (e : IO.Error) : SystemError :=
  ⟨match e with
    | .noFileOrDirectory .. => true
    | _ => false, toString e⟩

/-- What came of an action. -/
def attempt {α : Type} (action : IO α) : IO (Except SystemError α) := do
  match ← action.toBaseIO with
  | .ok a => pure (.ok a)
  | .error e => pure (.error (refusal e))

/-- The answer to a call on the local machine. Programs are not run. -/
def file : (c : FileCall) → IO (Except SystemError c.Reply)
  | .readText path => attempt (IO.FS.readFile path)
  | .readBytes path => attempt (IO.FS.readBinFile path)
  | .write path text => attempt (IO.FS.writeFile path text)
  | .createDirs path => attempt (IO.FS.createDirAll path)
  | .append path text => attempt (IO.FS.withFile path .append fun handle => handle.putStr text)
  | .run _ => pure (.error ⟨false, "Operation not permitted (os error 1)"⟩)

/-- The word of 64 bits at the front of bytes. -/
def word (bytes : List UInt8) : UInt64 := (bytes.take 8).foldl (fun sum b => sum * 256 + b.toUInt64) 0

/-- Random words. -/
def randomWords : Nat → IO (List UInt64)
  | 0 => pure []
  | n + 1 => do
    let bytes ← IO.getRandomBytes 8
    let words ← randomWords n
    pure (word bytes.toList :: words)

/-- Sleep for a while, in parts that the machine can measure. -/
def sleep (length : Duration) : IO Unit := IO.sleep (.ofNat (min length.millis 4000000000))

/-- Ask the operator. Only an affirmative answer is one. -/
def confirm (question : String) : IO Bool := do
  IO.eprint (question ++ " [y/N] ")
  let line ← (← IO.getStdin).getLine
  pure (["y", "yes"].contains (line.trimAscii.toString.map Char.toLower))

/-- Show a log line, unless it is a detail. -/
def showLine (line : LogLine) : IO Unit :=
  if line.level.rank ≤ Level.info.rank then IO.eprintln (line.level.name ++ " " ++ line.text) else pure ()

/-- The answer to a request. -/
def answer : (r : Request) → IO r.Reply
  | .file call => file call
  | .confirm question => confirm question
  | .now => do
    let t ← Std.Time.Timestamp.now
    pure (.ofNanos t.toNanosecondsSinceUnixEpoch.toInt)
  | .stopwatch => do
    let nanos ← IO.monoNanosNow
    pure ⟨nanos⟩
  | .sleep length => sleep length
  | .random count => randomWords count
  | .announce event => (event.lines?.getD []).forM showLine
  | .log line => showLine line
  | r => pure r.unanswered

/-- Run a program to its end. -/
def run {τ ε α : Type} [Memory τ] : Program τ ε α → τ → IO (Ending ε α)
  | .finish ending, _ => pure ending
  | .ask r next, own => do
    let reply ← answer r
    run (next reply) own
  | .consult next, own => run (next own) own
  | .change c next, own => run next (Memory.apply own c)

/-- How many polls the program may wait. -/
def patience : Nat := 1000000000

/-- All that the program does for a command line. -/
def experiment (line : CommandLine) (named : Option Path) : Program Experiment Report String := do
  let config ← ExperimentConfig.load (line.config <|> named)
  line.command.carryOut config patience line.nodes

/-- Print what a report says. -/
def complain (r : Report) : IO Unit := do
  for link in r.chain do
    IO.eprintln link.words

end CloudFleet.Machine

open CloudFleet in
/-- Carry out a command line. -/
def main (args : List String) : IO UInt32 := do
  match CommandLine.read args with
  | .error .helpWanted => do
    IO.println ("commands: " ++ " ".intercalate (CommandLine.commands.map Prod.fst))
    pure 0
  | .error .malformed => do
    IO.eprintln "wrong arguments"
    pure 2
  | .ok line => do
    let named ← IO.getEnv "FLEET_EXP_CONFIG"
    match ← Machine.run (Machine.experiment line named) {} with
    | .returned printed => do
      IO.print printed
      pure 0
    | .failed report => do
      Machine.complain report
      pure 1
    | .crashed | .stalled => pure 101
