import CloudFleet.Log.Line
import CloudFleet.Text.Blank

/-!
# Log filters

A filter is a list of directives with commas between them: a level for everything, or a level for the targets that
begin with a text. The longest beginning decides, of equal ones the last; what no directive is for is not shown.
-/

set_option autoImplicit false

namespace CloudFleet

/-- A level for the targets that begin with a text. -/
structure Directive where
  beginning : String
  /-- How many levels are shown, from the most important one. -/
  shown : Nat
deriving DecidableEq

/-- What a log shows. -/
structure LogFilter where
  directives : List Directive
deriving DecidableEq

namespace LogFilter

/-- The names of the levels with how many of them each shows. -/
def levelNames : List (String × Nat) :=
  [("off", 0), ("error", 1), ("warn", 2), ("info", 3), ("debug", 4), ("trace", 5),
   ("0", 0), ("1", 1), ("2", 2), ("3", 3), ("4", 4), ("5", 5)]

/-- The level of a name, in either case. -/
def level? (name : String) : Option Nat := levelNames.lookup (.ofList (name.toList.map Char.toLower))

/-- Whether a target may begin with a character. -/
def beginsTarget (c : Char) : Bool := c.isAlphanum || c == '-' || c == ':' || c == '_'

/-- The directive that a text stands for. A target without a level shows everything, as does an empty level. -/
def directive? (text : String) : Option Directive :=
  let text := Text.trim text
  let target := text.toList.takeWhile (· != '=')
  if !((target.head?).any beginsTarget) then none
  else
    match text.toList.drop target.length with
    | [] =>
      match level? text with
      | some shown => some ⟨"", shown⟩
      | none => some ⟨text, 5⟩
    | [_] => some ⟨.ofList target, 5⟩
    | _ :: name => (level? (.ofList name)).map fun shown => ⟨.ofList target, shown⟩

/-- The filter that a text stands for. An empty list shows errors. -/
def read? (text : String) : Option LogFilter := do
  let parts := ((text.toList.splitOn ',').map String.ofList).filter (· != "")
  let directives ← parts.mapM directive?
  pure ⟨if directives.isEmpty then [⟨"", 1⟩] else directives⟩

/-- The filter when none is asked for, or what is asked for cannot be read. -/
def default : LogFilter := ⟨[⟨"", 3⟩]⟩

/-- The filter that is asked for. -/
def ofText? (text : Option String) : LogFilter := (text.bind read?).getD default

/-- The better of two directives for a target: the longer beginning, the later one of equals. -/
def better (best : Option Directive) (d : Directive) : Option Directive :=
  match best with
  | none => some d
  | some b => if d.beginning.length < b.beginning.length then some b else some d

/-- Whether a line of a target is shown. -/
def shows (f : LogFilter) (target : String) (level : Level) : Bool :=
  match (f.directives.filter fun d => target.startsWith d.beginning).foldl better none with
  | some d => decide (level.rank ≤ d.shown)
  | none => false

end LogFilter

end CloudFleet
