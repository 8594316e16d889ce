import CloudFleet.Json.Basic

/-!
# Writing JSON

`Json.compact` leaves out all blanks. `Json.pretty` puts each item and each member on a line of its own, two spaces
deeper than what holds it; empty arrays and objects stay on one line.
-/

set_option autoImplicit false

namespace CloudFleet.Json

mutual

/-- A value without blanks. -/
def compactChars : Json → List Char
  | .null => ['n', 'u', 'l', 'l']
  | .bool true => ['t', 'r', 'u', 'e']
  | .bool false => ['f', 'a', 'l', 's', 'e']
  | .number numeral => numeral
  | .string written => '"' :: written ++ ['"']
  | .array items => '[' :: compactItems items ++ [']']
  | .object members => '\x7b' :: compactMembers members ++ ['\x7d']

/-- Items with commas between them. -/
def compactItems : List Json → List Char
  | [] => []
  | [item] => compactChars item
  | item :: items => compactChars item ++ ',' :: compactItems items

/-- Members with commas between them. -/
def compactMembers : List (List Char × Json) → List Char
  | [] => []
  | [(key, value)] => '"' :: key ++ '"' :: ':' :: compactChars value
  | (key, value) :: members => '"' :: key ++ '"' :: ':' :: compactChars value ++ ',' :: compactMembers members

end

/-- The start of a line at a depth. -/
def newLine (depth : Nat) : List Char := '\n' :: List.replicate (2 * depth) ' '

mutual

/-- A value over several lines, the first of which has begun at the given depth. -/
def prettyChars (depth : Nat) : Json → List Char
  | .array [] => ['[', ']']
  | .object [] => ['\x7b', '\x7d']
  | .array items => '[' :: prettyItems (depth + 1) items ++ newLine depth ++ [']']
  | .object members => '\x7b' :: prettyMembers (depth + 1) members ++ newLine depth ++ ['\x7d']
  | .null => ['n', 'u', 'l', 'l']
  | .bool true => ['t', 'r', 'u', 'e']
  | .bool false => ['f', 'a', 'l', 's', 'e']
  | .number numeral => numeral
  | .string written => '"' :: written ++ ['"']

/-- Items on lines of their own. -/
def prettyItems (depth : Nat) : List Json → List Char
  | [] => []
  | [item] => newLine depth ++ prettyChars depth item
  | item :: items => newLine depth ++ prettyChars depth item ++ ',' :: prettyItems depth items

/-- Members on lines of their own. -/
def prettyMembers (depth : Nat) : List (List Char × Json) → List Char
  | [] => []
  | [(key, value)] => newLine depth ++ '"' :: key ++ '"' :: ':' :: ' ' :: prettyChars depth value
  | (key, value) :: members =>
    newLine depth ++ '"' :: key ++ '"' :: ':' :: ' ' :: prettyChars depth value ++ ',' :: prettyMembers depth members

end

/-- A value on one line. -/
def compact (j : Json) : String := .ofList (compactChars j)

/-- A value over several lines. -/
def pretty (j : Json) : String := .ofList (prettyChars 0 j)

end CloudFleet.Json
