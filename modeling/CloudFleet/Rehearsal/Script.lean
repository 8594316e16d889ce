import CloudFleet.Text.Blank

/-!
# Scripts

The part of the shell language that stand-ins for programs are written in: simple commands with redirections,
conjunctions and disjunctions, loops over words, conditions, and choices by pattern. `Script.read?` reads a script.
-/

set_option autoImplicit false

namespace CloudFleet.Rehearsal.Script

/-- A piece of a word. -/
inductive Piece
  | literal (text : List Char) (quoted : Bool)
  /-- The value of a name. -/
  | value (name : String) (quoted : Bool)
  /-- All arguments, each as a word of its own. -/
  | arguments
  /-- All arguments in one. -/
  | allArguments (quoted : Bool)
deriving DecidableEq

/-- A word before its values are put in. -/
abbrev Word := List Piece

/-- Where a redirection leads. -/
inductive Direction
  | write
  | append
  /-- To where another stream leads. -/
  | same
deriving DecidableEq

/-- A piece of a script. -/
inductive Token
  | word (w : Word)
  | separator (text : String)
  /-- A redirection of a stream; its target is the next word. -/
  | redirect (stream : Nat) (direction : Direction)
deriving DecidableEq

/-- A redirection of a stream to a target. -/
structure Redirect where
  stream : Nat
  direction : Direction
  target : Word

/-- A command of a script. -/
inductive Command
  | simple (values : List (String × Word)) (words : List Word) (redirects : List Redirect)
  /-- Run a body for each word, or for each argument. -/
  | loop (name : String) (items : Option (List Word)) (body : List Command)
  /-- Run a body if a word has one of some patterns, and go on otherwise. -/
  | choose (subject : Word) (patterns : List Word) (body : List Command) (otherwise : Command)
  | nothing
  /-- Run the first body if a test succeeds, and the second otherwise. -/
  | cond (test body otherwise : List Command)
  /-- Succeed if a command fails. -/
  | negate (command : Command)
  /-- The second if the first succeeds. -/
  | both (first second : Command)
  /-- The second if the first fails. -/
  | either (first second : Command)

/-! ## Tokens -/

/-- Whether a character may stand in a name. -/
def isNameChar (c : Char) : Bool := c.isAlphanum || c == '_'

/-- The piece that begins behind a dollar sign, and what follows it. -/
def readValue (quoted : Bool) : List Char → Piece × List Char
  | '@' :: rest => (.arguments, rest)
  | '*' :: rest => (.allArguments quoted, rest)
  | '$' :: rest => (.value "$" quoted, rest)
  | '?' :: rest => (.value "?" quoted, rest)
  | '#' :: rest => (.value "#" quoted, rest)
  | '\x7b' :: rest =>
    (.value (.ofList (rest.takeWhile isNameChar)) quoted, (rest.dropWhile isNameChar).drop 1)
  | cs =>
    let name := match cs with
      | c :: _ => if c.isDigit then [c] else cs.takeWhile isNameChar
      | [] => []
    if name.isEmpty then (.literal ['$'] quoted, cs) else (.value (.ofList name) quoted, cs.drop name.length)

/-- The pieces between double quotes, and what follows them. -/
def readDouble : (fuel : Nat) → List Char → List Piece × List Char
  | 0, cs => ([], cs)
  | _ + 1, [] => ([], [])
  | fuel + 1, c :: cs =>
    if c = '"' then ([], cs)
    else
      let (piece, rest) : Piece × List Char := match c, cs with
        | '$', cs => readValue true cs
        | '\\', d :: rest =>
          if d = '"' ∨ d = '\\' ∨ d = '$' then (.literal [d] true, rest) else (.literal ['\\', d] true, rest)
        | c, cs => (.literal [c] true, cs)
      let (pieces, rest) := readDouble fuel rest
      (piece :: pieces, rest)

/-- Whether a character ends a word. -/
def endsWord (c : Char) : Bool := Text.isBlank c || c == ';' || c == '&' || c == '|' || c == '(' || c == ')' || c == '>'

/-- The pieces of a word, and what follows it. -/
def readWord : (fuel : Nat) → List Char → Word × List Char
  | 0, cs => ([], cs)
  | _ + 1, [] => ([], [])
  | fuel + 1, c :: cs =>
    if endsWord c then ([], c :: cs)
    else
      let (pieces, rest) : List Piece × List Char := match c, cs with
        | '\'', cs => ([.literal (cs.takeWhile (· != '\'')) true], (cs.dropWhile (· != '\'')).drop 1)
        | '"', cs =>
          let (inner, rest) := readDouble cs.length cs
          (.literal [] true :: inner, rest)
        | '\\', d :: rest => ([.literal [d] true], rest)
        | '$', cs =>
          let (piece, rest) := readValue false cs
          ([piece], rest)
        | c, cs => ([.literal [c] false], cs)
      let (more, rest) := readWord fuel rest
      (pieces ++ more, rest)

/-- A redirection of a stream, with what follows its sign. -/
def readRedirect (stream : Nat) : List Char → Token × List Char
  | '>' :: rest => (.redirect stream .append, rest)
  | '&' :: rest => (.redirect stream .same, rest)
  | rest => (.redirect stream .write, rest)

/-- The tokens of a script. -/
def tokens : (fuel : Nat) → List Char → List Token
  | 0, _ => []
  | _ + 1, [] => []
  | fuel + 1, c :: cs =>
    match c, cs with
    | '#', cs => tokens fuel (cs.dropWhile (· != '\n'))
    | '\n', cs => .separator "\n" :: tokens fuel cs
    | ';', ';' :: cs => .separator ";;" :: tokens fuel cs
    | ';', cs => .separator ";" :: tokens fuel cs
    | '&', '&' :: cs => .separator "&&" :: tokens fuel cs
    | '&', cs => .separator "&" :: tokens fuel cs
    | '|', '|' :: cs => .separator "||" :: tokens fuel cs
    | '|', cs => .separator "|" :: tokens fuel cs
    | '(', cs => .separator "(" :: tokens fuel cs
    | ')', cs => .separator ")" :: tokens fuel cs
    | '>', cs =>
      let (token, rest) := readRedirect 1 cs
      token :: tokens fuel rest
    | '1', '>' :: cs =>
      let (token, rest) := readRedirect 1 cs
      token :: tokens fuel rest
    | '2', '>' :: cs =>
      let (token, rest) := readRedirect 2 cs
      token :: tokens fuel rest
    | c, cs =>
      if Text.isBlank c then tokens fuel cs
      else
        let (word, rest) := readWord (cs.length + 1) (c :: cs)
        .word word :: tokens fuel rest

/-! ## Commands -/

/-- The text of a piece outside quotes. -/
def plain? : Piece → Option (List Char)
  | .literal text false => some text
  | _ => none

/-- The text of a word without quotes and values. -/
def plainText? (w : Word) : Option String := (w.mapM plain?).map fun texts => .ofList texts.flatten

/-- Whether a token is a given reserved word. -/
def isReserved (text : String) : Token → Bool
  | .word w => plainText? w == some text
  | _ => false

/-- Tokens without the separators of commands in front of them. -/
def skipBlank (ts : List Token) : List Token :=
  ts.dropWhile fun t => t == .separator "\n" || t == .separator ";"

/-- Whether commands end before a token. -/
def endsCommands (t : Token) : Bool :=
  ["done", "esac", "then", "elif", "else", "fi"].any (isReserved · t) || t == .separator ";;"

/-- The name and the value of a word that gives one to the other. Characters outside quotes are pieces of their own. -/
def assignment? (w : Word) : Option (String × Word) :=
  let name := w.takeWhile fun piece => match piece with
    | .literal [c] false => isNameChar c
    | _ => false
  match w.drop name.length with
  | .literal ['='] false :: value => if name.isEmpty then none else (plainText? name).map fun n => (n, value)
  | _ => none

/-- The parts of a simple command, and what follows it. -/
def readSimple : List Token → List Word × List Redirect × List Token
  | .word w :: rest =>
    let (words, redirects, rest) := readSimple rest
    (w :: words, redirects, rest)
  | .redirect stream direction :: .word target :: rest =>
    let (words, redirects, rest) := readSimple rest
    (words, ⟨stream, direction, target⟩ :: redirects, rest)
  | rest => ([], [], rest)

/-- A simple command from its parts: values come first. -/
def simpleOf (words : List Word) (redirects : List Redirect) : Command :=
  let values := (words.takeWhile fun w => (assignment? w).isSome).filterMap assignment?
  .simple values (words.drop values.length) redirects

/-- The words up to the end of a command. -/
def wordsBefore (ts : List Token) : List Word := ts.filterMap fun t => match t with
  | .word w => some w
  | _ => none

/-- Whether a token is a word or a bar: a part of the patterns of a choice. -/
def isPatternPart : Token → Bool
  | .word _ => true
  | t => t == .separator "|"

/-- What follows a reserved word. -/
def behind? (text : String) : List Token → Option (List Token)
  | t :: rest => if isReserved text t then some rest else none
  | [] => none

mutual

/-- Commands one after the other, and what follows them. -/
def readCommands : (fuel : Nat) → List Token → Option (List Command × List Token)
  | 0, _ => none
  | fuel + 1, ts =>
    match skipBlank ts with
    | [] => some ([], [])
    | t :: ts =>
      if endsCommands t then some ([], t :: ts)
      else do
        let (command, rest) ← readChain fuel (t :: ts)
        let (commands, rest) ← readCommands fuel rest
        pure (command :: commands, rest)

/-- A command with those that depend on its success, and what follows them. -/
def readChain : (fuel : Nat) → List Token → Option (Command × List Token)
  | 0, _ => none
  | fuel + 1, ts => do
    let (command, rest) ← readCommand fuel ts
    readRest fuel command rest

/-- What depends on the success of a command, and what follows it. -/
def readRest : (fuel : Nat) → Command → List Token → Option (Command × List Token)
  | 0, _, _ => none
  | fuel + 1, first, ts =>
    match ts with
    | .separator "&&" :: rest => do
      let (second, rest) ← readCommand fuel (skipBlank rest)
      readRest fuel (.both first second) rest
    | .separator "||" :: rest => do
      let (second, rest) ← readCommand fuel (skipBlank rest)
      readRest fuel (.either first second) rest
    | _ => some (first, ts)

/-- One command, and what follows it. -/
def readCommand : (fuel : Nat) → List Token → Option (Command × List Token)
  | 0, _ => none
  | fuel + 1, ts =>
    match ts with
    | [] => none
    | t :: rest =>
      if isReserved "for" t then readLoop fuel rest
      else if isReserved "if" t then readCondition fuel rest
      else if isReserved "!" t then (readCommand fuel rest).map fun read => (.negate read.1, read.2)
      else if isReserved "case" t then
        match rest with
        | .word subject :: into :: rest =>
          if isReserved "in" into then readArms fuel subject rest else none
        | _ => none
      else
        let (words, redirects, rest) := readSimple (t :: rest)
        if words.isEmpty && redirects.isEmpty then none else some (simpleOf words redirects, rest)

/-- A condition behind its first word, and what follows it. -/
def readCondition : (fuel : Nat) → List Token → Option (Command × List Token)
  | 0, _ => none
  | fuel + 1, ts => do
    let (test, rest) ← readCommands fuel ts
    let rest ← behind? "then" rest
    let (body, rest) ← readCommands fuel rest
    match rest with
    | t :: rest =>
      if isReserved "fi" t then pure (.cond test body [], rest)
      else if isReserved "elif" t then
        let (otherwise, rest) ← readCondition fuel rest
        pure (.cond test body [otherwise], rest)
      else if isReserved "else" t then
        let (otherwise, rest) ← readCommands fuel rest
        let rest ← behind? "fi" rest
        pure (.cond test body otherwise, rest)
      else none
    | [] => none

/-- A loop behind its first word, and what follows it. -/
def readLoop : (fuel : Nat) → List Token → Option (Command × List Token)
  | 0, _ => none
  | fuel + 1, ts =>
    match ts with
    | .word name :: rest => do
      let name ← plainText? name
      let (items, rest) : Option (List Word) × List Token := match rest with
        | t :: more =>
          if isReserved "in" t then
            let (words, _, rest) := readSimple more
            (some words, rest)
          else (none, rest)
        | [] => (none, [])
      match skipBlank rest with
      | t :: rest =>
        if isReserved "do" t then
          let (body, rest) ← readCommands fuel rest
          match rest with
          | t :: rest => if isReserved "done" t then some (.loop name items body, rest) else none
          | [] => none
        else none
      | [] => none
    | _ => none

/-- The choices behind the subject, and what follows them. -/
def readArms : (fuel : Nat) → Word → List Token → Option (Command × List Token)
  | 0, _, _ => none
  | fuel + 1, subject, ts =>
    match skipBlank ts with
    | [] => none
    | t :: ts =>
      if isReserved "esac" t then some (.nothing, ts)
      else
        let ts := if t == .separator "(" then ts else t :: ts
        let patterns := wordsBefore (ts.takeWhile isPatternPart)
        match ts.dropWhile isPatternPart with
        | close :: rest =>
          if close == .separator ")" then do
            let (body, rest) ← readCommands fuel rest
            let rest := match rest with
              | .separator ";;" :: more => more
              | _ => rest
            let (otherwise, rest) ← readArms fuel subject rest
            pure (.choose subject patterns body otherwise, rest)
          else none
        | [] => none

end

/-- The commands of a script. -/
def read? (script : String) : Option (List Command) :=
  let ts := tokens (script.length + 1) script.toList
  match readCommands (8 * ts.length + 8) ts with
  | some (commands, []) => some commands
  | _ => none

end CloudFleet.Rehearsal.Script
