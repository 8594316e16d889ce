/-!
# Arguments

How a list of words is read as flags, options with values, and operands. An option's value is the next word, or stands
behind an equals sign in the same word; nothing is given twice; behind `--` all words are operands.
-/

set_option autoImplicit false

namespace CloudFleet.CommandLine

/-- Why words are not carried out. -/
inductive UsageError
  /-- Help was asked for instead. -/
  | helpWanted
  | malformed
deriving DecidableEq

/-- What words may say. -/
structure Grammar where
  flags : List String := []
  /-- The options, each with what it takes for a value. -/
  options : List (String × (String → Bool)) := []
  /-- How many operands there may be; any number if absent. -/
  operands : Option Nat := some 0
  /-- Words with which something else begins. -/
  stops : List String := []

/-- What words say. -/
structure Arguments where
  flags : List String := []
  options : List (String × String) := []
  operands : List String := []
  /-- An option with its value, before the value was looked at. -/
  held : Option (String × String) := none

namespace Arguments

/-- The value of an option. -/
def option? (a : Arguments) (name : String) : Option String := a.options.lookup name

/-- Whether a flag is given. -/
def flag (a : Arguments) (name : String) : Bool := a.flags.contains name

/-- The arguments after a look at the value held. -/
def settle (g : Grammar) (a : Arguments) : Except UsageError Arguments :=
  match a.held with
  | none => .ok a
  | some (name, value) =>
    if (a.option? name).isSome || !(g.options.lookup name).any fun takes => takes value then .error .malformed
    else .ok { a with options := (name, value) :: a.options, held := none }

/-- The arguments with a flag more. -/
def addFlag (name : String) (a : Arguments) : Except UsageError Arguments :=
  if name = "help" then .error .helpWanted
  else if a.flag name then .error .malformed
  else .ok { a with flags := name :: a.flags }

/-- The arguments with an operand more. -/
def addOperand (g : Grammar) (word : String) (a : Arguments) : Except UsageError Arguments := do
  let a ← a.settle g
  if g.operands.all fun most => decide (a.operands.length < most) then
    pure { a with operands := a.operands ++ [word] }
  else .error .malformed

/-- The arguments with operands more. -/
def addOperands (g : Grammar) : List String → Arguments → Except UsageError Arguments
  | [], a => .ok a
  | word :: words, a => do
    let a ← a.addOperand g word
    addOperands g words a

end Arguments

/-- What a word is by its dashes. -/
inductive Dashed
  /-- Operands follow. -/
  | separator
  /-- A flag or an option, with what is behind the equals sign. -/
  | long (name : String) (value : Option String)
  /-- Letters behind a single dash. -/
  | short (letters : List Char)
  | plain

/-- The kind of a word. -/
def Dashed.of (word : String) : Dashed :=
  match word.toList with
  | ['-', '-'] => separator
  | '-' :: '-' :: cs =>
    let name := cs.takeWhile (· != '=')
    long (.ofList name) (match cs.dropWhile (· != '=') with
      | _ :: value => some (.ofList value)
      | [] => none)
  | '-' :: c :: cs => short (c :: cs)
  | _ => plain

namespace Grammar

/-- Whether there is a flag of a name. Every grammar has one for help. -/
def hasFlag (g : Grammar) (name : String) : Bool := name == "help" || g.flags.contains name

/-- Read words up to one with which something else begins. The option that waits for a value takes the next word that
has no dashes. -/
def read (g : Grammar) (a : Arguments) : (waiting : Option String) → List String →
    Except UsageError (Arguments × List String)
  | none, [] => .ok (a, [])
  | some _, [] => .error .malformed
  | some name, word :: words =>
    match Dashed.of word with
    | .plain => read g { a with held := some (name, word) } none words
    | _ => .error .malformed
  | none, word :: words =>
    if g.stops.contains word then .ok (a, word :: words)
    else
      match Dashed.of word with
      | .separator => (a.addOperands g words).map fun a => (a, [])
      | .plain => do
        let a ← a.addOperand g word
        read g a none words
      | .short letters => do
        let _ ← a.settle g
        .error (if letters.head? = some 'h' then .helpWanted else .malformed)
      | .long name value => do
        let a ← a.settle g
        match value with
        | none =>
          if g.hasFlag name then
            let a ← a.addFlag name
            read g a none words
          else if (g.options.lookup name).isSome then read g a (some name) words
          else .error .malformed
        | some value =>
          let a ← { a with held := some (name, value) }.settle g
          read g a none words

end Grammar

end CloudFleet.CommandLine
