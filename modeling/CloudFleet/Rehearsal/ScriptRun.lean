import CloudFleet.Rehearsal.FileTree
import CloudFleet.Rehearsal.Script
import CloudFleet.Text.Octets
import CloudFleet.Time.Duration

/-!
# Running scripts

`Script.run` runs a script on the files of a machine, with arguments. What the script writes to its streams is kept as
bytes, and sleeping only counts the time that it takes.
-/

set_option autoImplicit false

namespace CloudFleet.Rehearsal.Script

/-- A script that runs. -/
structure Runner where
  files : FileTree
  args : List String
  values : List (String × String) := []
  stdout : List UInt8 := []
  stderr : List UInt8 := []
  /-- How the last command ended. -/
  last : Int := 0
  /-- How the script ended, if it has. -/
  ended : Option ExitStatus := none
  /-- The time spent asleep. -/
  slept : Duration := .zero

/-- What a command does besides changing the runner: it writes to its streams. -/
structure Written where
  stdout : List UInt8 := []
  stderr : List UInt8 := []

/-- The bytes of a text. -/
def bytesOf (s : String) : List UInt8 := s.toUTF8.toList

/-! ## Words -/

/-- The value of a name. -/
def valueOf (r : Runner) (name : String) : String :=
  if name = "$" then "1"
  else if name = "?" then toString r.last
  else if name = "#" then toString r.args.length
  else
    match name.toNat? with
    | some 0 => "sh"
    | some (n + 1) => r.args.getD n ""
    | none => (r.values.lookup name).getD ""

/-- The text of a word as a whole. -/
def expandWhole (r : Runner) (w : Word) : String :=
  String.join (w.map fun piece => match piece with
    | .literal text _ => .ofList text
    | .value name _ => valueOf r name
    | .arguments | .allArguments _ => " ".intercalate r.args)

/-- Finished words and one that goes on, with texts put behind: the first goes on, the others begin words. -/
def addWords (state : List String × Option String) : List String → List String × Option String
  | [] => state
  | [text] => (state.1, some (state.2.getD "" ++ text))
  | text :: texts => addWords (state.1 ++ [state.2.getD "" ++ text], none) texts

/-- The words of a text between blanks. -/
def wordsOf (text : String) : List String :=
  ((text.toList.splitOnP Text.isBlank).filter fun w => !w.isEmpty).map String.ofList

/-- Finished words and one that goes on, with a piece put behind. A value outside quotes is split at blanks. -/
def addPiece (r : Runner) (state : List String × Option String) : Piece → List String × Option String
  | .literal text _ => (state.1, some (state.2.getD "" ++ .ofList text))
  | .value name true => (state.1, some (state.2.getD "" ++ valueOf r name))
  | .value name false => addWords state (wordsOf (valueOf r name))
  | .arguments => addWords state r.args
  | .allArguments true => (state.1, some (state.2.getD "" ++ " ".intercalate r.args))
  | .allArguments false => addWords state (wordsOf (" ".intercalate r.args))

/-- Whether a word is nothing but all arguments. -/
def isArguments (w : Word) : Bool := w.all fun piece => piece == .arguments || piece == .literal [] true

/-- The words that a word stands for. -/
def expand (r : Runner) (w : Word) : List String :=
  if isArguments w && w.contains .arguments then r.args
  else
    let (words, last) := w.foldl (addPiece r) ([], none)
    words ++ last.toList

/-! ## Patterns -/

/-- A part of a pattern: a character, any one character, or any text. -/
inductive Glyph
  | char (c : Char)
  | anyChar
  | anyText

/-- The parts of a pattern. Quoted characters stand for themselves. -/
def glyphs (r : Runner) (w : Word) : List Glyph :=
  w.flatMap fun piece => match piece with
    | .literal text true => text.map .char
    | .literal text false => text.map fun c => if c = '*' then .anyText else if c = '?' then .anyChar else .char c
    | .value name _ => (valueOf r name).toList.map .char
    | .arguments | .allArguments _ => (" ".intercalate r.args).toList.map .char

/-- Whether a text has a pattern. -/
def fits : List Glyph → List Char → Bool
  | [], cs => cs.isEmpty
  | .char c :: gs, d :: ds => c == d && fits gs ds
  | .anyChar :: gs, _ :: ds => fits gs ds
  | .anyText :: gs, [] => fits gs []
  | .anyText :: gs, d :: ds => fits gs (d :: ds) || fits (.anyText :: gs) ds
  | _ :: _, [] => false
termination_by gs cs => gs.length + cs.length

/-! ## Programs -/

/-- The value of an octal digit. -/
def octal? (c : Char) : Option Nat := if '0' ≤ c ∧ c ≤ '7' then some (c.toNat - 48) else none

/-- The byte of up to three octal digits, and what follows them. -/
def readOctal (cs : List Char) : Nat × List Char :=
  let digits := (cs.take 3).takeWhile fun c => (octal? c).isSome
  (digits.foldl (fun n c => n * 8 + (c.toNat - 48)) 0, cs.drop digits.length)

/-- The bytes of the letters that stand behind a backslash. -/
def escapes : List (Char × UInt8) :=
  [('a', 7), ('b', 8), ('f', 12), ('n', 10), ('r', 13), ('t', 9), ('v', 11), ('\\', 92)]

/-- The bytes of a text to be echoed, and whether a line ends behind it. -/
def echoed : (fuel : Nat) → List Char → List UInt8 × Bool
  | 0, _ => ([], true)
  | _ + 1, [] => ([], true)
  | fuel + 1, c :: cs =>
    let (bytes, rest) : List UInt8 × List Char := match c, cs with
      | '\\', '0' :: rest =>
        let (n, rest) := readOctal rest
        ([UInt8.ofNat n], rest)
      | '\\', d :: rest =>
        match escapes.lookup d with
        | some byte => ([byte], rest)
        | none => (bytesOf (.ofList ['\\', d]), rest)
      | c, rest => (bytesOf (.ofList [c]), rest)
    if c = '\\' ∧ cs.head? = some 'c' then ([], false)
    else
      let (more, ends) := echoed fuel rest
      (bytes ++ more, ends)

/-- What words write as a line. -/
def echoLine (words : List String) (ends : Bool) : List UInt8 :=
  let text := " ".intercalate words
  let (bytes, whole) := echoed (text.length + 1) text.toList
  if whole && ends then bytes ++ [10] else bytes

/-- One use of a format: what it writes, and the arguments that are left. -/
def formatOnce : (fuel : Nat) → List Char → List String → List UInt8 × List String
  | 0, _, args => ([], args)
  | _ + 1, [], args => ([], args)
  | fuel + 1, c :: cs, args =>
    let (bytes, rest, args) : List UInt8 × List Char × List String := match c, cs with
      | '\\', d :: rest =>
        if (octal? d).isSome then
          let (n, rest) := readOctal (d :: rest)
          ([UInt8.ofNat n], rest, args)
        else
          match escapes.lookup d with
          | some byte => ([byte], rest, args)
          | none => (bytesOf (.ofList ['\\', d]), rest, args)
      | '%', '%' :: rest => ([37], rest, args)
      | '%', 's' :: rest => (bytesOf (args.headD ""), rest, args.drop 1)
      | '%', 'd' :: rest => (bytesOf (args.headD "0"), rest, args.drop 1)
      | c, rest => (bytesOf (.ofList [c]), rest, args)
    let (more, args) := formatOnce fuel rest args
    (bytes ++ more, args)

/-- A format used again as long as arguments are left. -/
def formatAll (cs : List Char) : (fuel : Nat) → List String → List UInt8
  | 0, _ => []
  | fuel + 1, args =>
    let (bytes, rest) := formatOnce (cs.length + 1) cs args
    if rest.isEmpty || rest.length = args.length then bytes else bytes ++ formatAll cs fuel rest

/-- What a program says of a path that it cannot use. -/
def complaint (program path : String) (e : SystemError) : String :=
  program ++ ": " ++ path ++ ": " ++ (e.text.splitOn " (os error").headD ""

/-- The texts of files one after the other, with what is said of those that cannot be read; nothing without files, since
there is no input. -/
def concatenate (t : FileTree) : List String → Written
  | [] => {}
  | path :: paths =>
    let rest := concatenate t paths
    match t.read path with
    | .ok text => { rest with stdout := bytesOf text ++ rest.stdout }
    | .error e => { rest with stderr := bytesOf (complaint "cat" path e ++ "\n") ++ rest.stderr }

/-- Whether a test holds. -/
def holds (t : FileTree) : List String → Bool
  | ["!", a] => a.isEmpty
  | ["-n", a] => !a.isEmpty
  | ["-z", a] => a.isEmpty
  | ["-e", path] => ((t.place path).toOption.bind t.entry?).isSome
  | ["-f", path] => (t.read path).toOption.isSome
  | ["-d", path] => ((t.place path).toOption.bind t.entry?) == some .dir
  | [a, "=", b] => a == b
  | [a, "!=", b] => a != b
  | [a, "-eq", b] => a.toInt? == b.toInt?
  | [a, "-ne", b] => a.toInt? != b.toInt?
  | ["!", a, b, c] => !holds t [a, b, c]
  | ["!", a, b] => !holds t [a, b]
  | [a] => !a.isEmpty
  | _ => false

/-- The tree with a file in another place. -/
def moveFile (t : FileTree) (source target : String) : Except SystemError FileTree := do
  let text ← t.read source
  let t ← t.write target text
  let place ← t.place source
  pure (t.drop place)

/-- A program that fails with a line on the error stream. -/
def fails (r : Runner) (code : Int) (line : String) : Runner × Written :=
  ({ r with last := code }, { stderr := bytesOf (line ++ "\n") })

/-- The number that a text stands for, or a default. -/
def numberOr (default : Int) (text : String) : Int := (text.toInt?).getD default

/-- The number of a signal by its name or its number, with or without a dash. -/
def signalOf (text : String) : Nat :=
  let name : String := .ofList (text.toList.dropWhile (· == '-'))
  match name.toNat? with
  | some n => n
  | none => ((ExitStatus.signalNames.find? fun s => s.2 == name || s.2 == "SIG" ++ name).map Prod.fst).getD 0

/-- The runner, ended by a signal. -/
def killed (r : Runner) (signal : Nat) : Runner × Written := ({ r with ended := some (.killed signal) }, {})

/-- The tree with each path made by a function, as far as that goes. -/
def eachPath (f : FileTree → Path → Except SystemError FileTree) (t : FileTree) (paths : List Path) : FileTree :=
  paths.foldl (fun t path => (f t path).toOption.getD t) t

/-- The tree without a file. -/
def removeFile (t : FileTree) (path : Path) : Except SystemError FileTree := do
  let _ ← t.read path
  let place ← t.place path
  pure (t.drop place)

/-- Run a program. -/
def runProgram (r : Runner) (name : String) (args : List String) : Runner × Written :=
  let fine := { r with last := 0 }
  match name, args with
  | "echo", "-n" :: args => (fine, { stdout := echoLine args false })
  | "echo", args => (fine, { stdout := echoLine args true })
  | "printf", format :: args => (fine, { stdout := formatAll format.toList (args.length + 1) args })
  | "cat", paths =>
    let written := concatenate r.files paths
    ({ r with last := if written.stderr.isEmpty then 0 else 1 }, written)
  | "mv", [source, target] =>
    match moveFile r.files source target with
    | .ok files => ({ fine with files }, {})
    | .error e => fails r 1 ("mv: " ++ e.text)
  | "exit", codes => ({ r with ended := some (.exited ((codes.map (numberOr 0)).headD r.last % 256)) }, {})
  | "kill", ["-s", signal, "1"] | "kill", [signal, "1"] => killed r (signalOf signal)
  | "kill", ["1"] => killed r 15
  | "test", args => ({ r with last := if holds r.files args then 0 else 1 }, {})
  | "[", args => ({ r with last := if holds r.files args.dropLast then 0 else 1 }, {})
  | "read", names => ({ r with last := 1, values := names.map (·, "") ++ r.values }, {})
  | "shift", counts => ({ fine with args := r.args.drop ((counts.map (numberOr 1)).headD 1).toNat }, {})
  | "touch", paths => ({ fine with files := eachPath (fun t path => t.append path "") r.files paths }, {})
  | "rm", paths => ({ fine with files := eachPath removeFile r.files paths }, {})
  | "mkdir", paths => ({ fine with files := eachPath FileTree.createDirs r.files (paths.filter (· != "-p")) }, {})
  | "cp", [source, target] =>
    match r.files.read source with
    | .ok text => ({ fine with files := eachPath (fun t path => t.write path text) r.files [target] }, {})
    | .error e => fails r 1 (complaint "cp" source e)
  | "sleep", [seconds] =>
    ({ fine with slept := ⟨r.slept.nanos + (Duration.ofSeconds (numberOr 0 seconds).toNat).nanos⟩ }, {})
  | "true", _ | ":", _ => (fine, {})
  | "false", _ => ({ r with last := 1 }, {})
  | name, _ => fails r 127 ("sh: " ++ name ++ ": not found")

/-! ## Commands -/

/-- Where a stream leads. -/
inductive Sink
  | stdout
  | stderr
  | file (path : Path)

/-- The runner with bytes put where a stream leads. -/
def pour (r : Runner) (bytes : List UInt8) : Sink → Runner
  | .stdout => { r with stdout := r.stdout ++ bytes }
  | .stderr => { r with stderr := r.stderr ++ bytes }
  | .file path =>
    match r.files.append path (Text.decodeLossy bytes) with
    | .ok files => { r with files }
    | .error _ => r

/-- Where the two streams of a command lead, and the runner with files made or emptied on the way. -/
def direct (r : Runner) : List Redirect → Sink × Sink → Except Runner (Runner × Sink × Sink)
  | [], sinks => .ok (r, sinks)
  | redirect :: rest, (out, err) =>
    let target := expandWhole r redirect.target
    let lead (r : Runner) (sink : Sink) : Except Runner (Runner × Sink × Sink) :=
      direct r rest (if redirect.stream = 2 then (out, sink) else (sink, err))
    match redirect.direction with
    | .same => lead r (if target = "2" then err else out)
    | .write =>
      if target = "/dev/null" then lead r (.file target)
      else
        match r.files.write target "" with
        | .ok files => lead { r with files } (.file target)
        | .error e => .error (fails r 2 ("sh: cannot create " ++ target ++ ": " ++ e.text)).1
    | .append =>
      match r.files.append target "" with
      | .ok files => lead { r with files } (.file target)
      | .error e => .error (fails r 2 ("sh: cannot create " ++ target ++ ": " ++ e.text)).1

/-- Run a program with its streams directed. -/
def runSimple (r : Runner) (words : List Word) (redirects : List Redirect) : Runner :=
  match direct r redirects (.stdout, .stderr) with
  | .error r => r
  | .ok (r, out, err) =>
    match words.flatMap (expand r) with
    | [] => { r with last := 0 }
    | "exec" :: name :: args =>
      let (r, written) := runProgram r name args
      let r := pour (pour r written.stdout out) written.stderr err
      { r with ended := some (r.ended.getD (.exited r.last)) }
    | name :: args =>
      let (r, written) := runProgram r name args
      pour (pour r written.stdout out) written.stderr err

/-- The runner with values given to names. -/
def setValues (r : Runner) : List (String × Word) → Runner
  | [] => r
  | (name, w) :: rest => setValues { r with values := (name, expandWhole r w) :: r.values } rest

mutual

/-- Run a command. -/
def runCommand (c : Command) (r : Runner) : Runner :=
  if r.ended.isSome then r
  else
    match c with
    | .simple values words redirects => runSimple (setValues r values) words redirects
    | .loop name items body =>
      let texts := match items with
        | some ws => ws.flatMap (expand r)
        | none => r.args
      texts.foldl (fun r text => runCommands body { r with values := (name, text) :: r.values }) r
    | .choose subject patterns body otherwise =>
      if patterns.any fun p => fits (glyphs r p) (expandWhole r subject).toList then runCommands body { r with last := 0 }
      else runCommand otherwise r
    | .nothing => { r with last := 0 }
    | .cond test body otherwise =>
      let r := runCommands test r
      if r.last = 0 then runCommands body r else runCommands otherwise { r with last := 0 }
    | .negate command =>
      let r := runCommand command r
      { r with last := if r.last = 0 then 1 else 0 }
    | .both first second =>
      let r := runCommand first r
      if r.last = 0 then runCommand second r else r
    | .either first second =>
      let r := runCommand first r
      if r.last = 0 then r else runCommand second r

/-- Run commands one after the other. -/
def runCommands (cs : List Command) (r : Runner) : Runner :=
  match cs with
  | [] => r
  | c :: cs => runCommands cs (runCommand c r)

end

/-- How a program ended, and what it left behind. -/
structure Finished where
  status : ExitStatus
  stdout : List UInt8
  stderr : List UInt8
  slept : Duration

/-- Run a script with arguments on the files of a machine. -/
def run (files : FileTree) (script : String) (args : List String) : Finished × FileTree :=
  match read? script with
  | none => (⟨.exited 2, [], bytesOf "sh: syntax error\n", .zero⟩, files)
  | some commands =>
    let r := runCommands commands { files, args }
    (⟨r.ended.getD (.exited r.last), r.stdout, r.stderr, r.slept⟩, r.files)

/-- Run a program by its name: one of the machine's own, or a file that is a script. -/
def launch (files : FileTree) (program : Path) (args : List String) : Except SystemError (Finished × FileTree) :=
  if program.isEmpty then .error FileTree.noSuch
  else if program.toList.contains '/' then
    match files.place program with
    | .error e => .error e
    | .ok place =>
      match files.entry? place with
      | some (.file text true) => .ok (run files text args)
      | some _ => .error FileTree.denied
      | none => .error FileTree.noSuch
  else if ["true", "false", "echo", "cat", "sleep"].contains program then
    let (r, written) := runProgram { files, args := [] } program args
    .ok (⟨.exited r.last, written.stdout, written.stderr, r.slept⟩, files)
  else .error FileTree.noSuch

end CloudFleet.Rehearsal.Script
