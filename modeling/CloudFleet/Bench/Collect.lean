import CloudFleet.Bench.Deploy
import CloudFleet.Bench.RecordJson
import CloudFleet.Json.Printer

/-!
# Collecting what a run left behind

`Bench.collectResults` reads the result of every host into the record, judges the run and appends it to the table of
runs. `Bench.collectLogs` downloads the logs into a directory named for the start of the run and puts the record
beside them.
-/

set_option autoImplicit false

namespace CloudFleet

/-- What came of collecting, with the record as far as it got. -/
structure Collected (α : Type) where
  record : RunRecord
  result : Except Report α

namespace Bench

/-! ## Results -/

/-- What a host reported. Success with other rounds than those of the run is that of a node made to stop early. -/
def hostResult (r : RunRecord) (o : Outcome) : HostResult :=
  let output := Text.trim o.stdout
  if o.isSuccess && output == "OK" then
    if r.roundsOf o.host = some r.numRounds then .ok else .evil
  else if o.isSuccess && output == "FAILED" then .failed
  else .missing output

/-- The record with the results of the hosts, and the verdict: every host must have succeeded. -/
def judge (r : RunRecord) (outcomes : List Outcome) : RunRecord :=
  let results := outcomes.map fun o => (o.host, hostResult r o)
  { r with
    results
    verdict := some (if results.any fun entry => entry.2.isFailure then .failed else .ok) }

/-- Tell how the hosts did. -/
def tellResults {ε : Type} (r : RunRecord) : Program Session ε Unit := do
  let failed := r.results.filter fun entry => entry.2.isFailure
  let evil := r.results.filter fun entry => entry.2 == .evil
  Program.each (fun entry => .warn s!"{entry.1}: {entry.2.text}") failed
  let verdict := (r.verdict.map Verdict.text).getD ""
  .info s!"RESULT: {verdict}"
  let ok := r.results.length - failed.length
  .info s!"OK returned by {ok} node(s) (out of which {evil.length} aborted)"
  .info s!"FAILED returned by {failed.length} node(s)"

/-- Add a line at the end of a file, which is made with its directory if there is none. -/
def appendLine {τ : Type} [Memory τ] (path : Path) (line : String) : Program τ SystemError Unit := do
  match path.parent? with
  | none => pure ()
  | some dir => do
    let made ← Program.request (.file (.createDirs dir))
    Program.ofExcept made
  let appended ← Program.request (.file (.append path (line ++ "\n")))
  Program.ofExcept appended

/-- The command that prints the result of a host. -/
def resultCommand (c : BenchConfig) : String := "cat " ++ c.resultFile

/-- Read the results of all hosts, judge the run, and add it to the table of runs. -/
def collectResults {ε : Type} (c : BenchConfig) (r : RunRecord) : Program Session ε (Collected Verdict) := do
  .info "collecting results..."
  match ← (Session.run (resultCommand c) .tolerant).attempt with
  | .error e => pure ⟨r, .error (.ofRemote e)⟩
  | .ok result =>
    let judged := judge r result.outcomes
    tellResults judged
    match ← (appendLine c.resultsCsv judged.csvLine).attempt with
    | .error e => pure ⟨judged, .error ((Report.ofSystem e).within s!"append to {c.resultsCsv}")⟩
    | .ok () => pure ⟨judged, .ok (judged.verdict.getD .failed)⟩

/-! ## Logs -/

/-- Download log files one after the other into a directory. -/
def downloadEach (dir : Path) : List String → BenchProgram Unit
  | [] => pure ()
  | remote :: rest => do
    let s ← Program.memory
    .info s!"downloading {remote} from {s.hosts.length} host(s)"
    let _ ← Program.within s!"download {remote}" (Program.reportRemote (Session.copyFrom remote dir))
    let _ ← Program.request (.progress .advance)
    downloadEach dir rest

/-- Download every log file of every host into a directory below that of the data; gives its path. -/
def downloadLogs (c : BenchConfig) (name : String) : BenchProgram Path := do
  let dir := Path.join c.dataDir name
  let _ ← Program.within s!"create {dir}" (Program.reportFile (.createDirs dir))
  let _ ← Program.request (.progress (.length c.logFiles.length))
  downloadEach dir c.logFiles
  let _ ← Program.request (.progress .finish)
  pure dir

/-- The file beside the logs that holds the record. -/
def recordFile : String := "run.json"

/-- Download the logs of a run, and put the record beside them. -/
def collectLogs {ε : Type} (c : BenchConfig) (r : RunRecord) : Program Session ε (Collected Path) := do
  match ← (downloadLogs c r.start.dirName).attempt with
  | .error e => pure ⟨r, .error e⟩
  | .ok dir =>
    let kept := { r with dataDir := some dir }
    let text := Json.pretty kept.toJson
    match ← Program.request (.file (.write (Path.join dir recordFile) text)) with
    | .error e => pure ⟨kept, .error ((Report.ofSystem e).within "write run record")⟩
    | .ok () => pure ⟨kept, .ok dir⟩

end Bench

end CloudFleet
