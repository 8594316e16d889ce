import CloudFleet.Json.Basic

/-!
# Reading JSON

`Json.read?` accepts exactly the texts of RFC 8259: one value, blanks around it and nothing else. Readers take a list
of characters and give back a value with the characters that are left. The recursion of values on values is bounded
by a budget that the length of the text covers.
-/

set_option autoImplicit false

namespace CloudFleet.Json

/-- Blanks between the parts of a text. -/
def isGap (c : Char) : Bool := c == ' ' || c == '\t' || c == '\n' || c == '\r'

/-- An input without the blanks in front. -/
def skipGap (cs : List Char) : List Char := cs.dropWhile isGap

/-- A non-empty run of digits. -/
def scanDigits (cs : List Char) : Option (List Char × List Char) :=
  match cs.takeWhile Char.isDigit with
  | [] => none
  | ds => some (ds, cs.dropWhile Char.isDigit)

/-- The whole part of a number: one zero, or digits without a zero in front. -/
def scanWhole (cs : List Char) : Option (List Char × List Char) :=
  match cs with
  | '0' :: rest => match rest with
    | c :: _ => if c.isDigit then none else some (['0'], rest)
    | [] => some (['0'], rest)
  | _ => scanDigits cs

/-- The fraction of a number, which may be absent. -/
def scanFraction (cs : List Char) : Option (List Char × List Char) :=
  match cs with
  | '.' :: rest => do
    let (ds, rest) ← scanDigits rest
    pure ('.' :: ds, rest)
  | _ => some ([], cs)

/-- The exponent of a number, which may be absent. -/
def scanExponent (cs : List Char) : Option (List Char × List Char) :=
  match cs with
  | e :: rest =>
    if e = 'e' ∨ e = 'E' then
      match rest with
      | sign :: rest' =>
        if sign = '+' ∨ sign = '-' then do
          let (ds, rest) ← scanDigits rest'
          pure (e :: sign :: ds, rest)
        else do
          let (ds, rest) ← scanDigits rest
          pure (e :: ds, rest)
      | [] => none
    else some ([], cs)
  | [] => some ([], cs)

/-- A number. -/
def scanNumber (cs : List Char) : Option (List Char × List Char) := do
  let (sign, cs) := match cs with
    | '-' :: rest => (['-'], rest)
    | _ => ([], cs)
  let (whole, cs) ← scanWhole cs
  let (fraction, cs) ← scanFraction cs
  let (exponent, cs) ← scanExponent cs
  pure (sign ++ whole ++ fraction ++ exponent, cs)

/-- What stands before the closing quote of a string, and what follows the quote. Escapes must be known ones, and
control characters must be escaped. -/
def scanString : List Char → Option (List Char × List Char)
  | [] => none
  | '"' :: rest => some ([], rest)
  | '\\' :: 'u' :: a :: b :: c :: d :: rest =>
    if (unit? a b c d).isSome then do
      let (tail, rest) ← scanString rest
      pure ('\\' :: 'u' :: a :: b :: c :: d :: tail, rest)
    else none
  | '\\' :: c :: rest =>
    if (escaped? c).isSome then do
      let (tail, rest) ← scanString rest
      pure ('\\' :: c :: tail, rest)
    else none
  | c :: rest =>
    if c.toNat < 32 ∨ c = '\\' then none
    else do
      let (tail, rest) ← scanString rest
      pure (c :: tail, rest)

/-- A given word. -/
def scanWord (word : List Char) (value : Json) (cs : List Char) : Option (Json × List Char) :=
  if word.isPrefixOf cs then some (value, cs.drop word.length) else none

mutual

/-- A value, without blanks in front. -/
def scanValue : Nat → List Char → Option (Json × List Char)
  | 0, _ => none
  | budget + 1, cs =>
    match cs with
    | 'n' :: _ => scanWord ['n', 'u', 'l', 'l'] .null cs
    | 't' :: _ => scanWord ['t', 'r', 'u', 'e'] (.bool true) cs
    | 'f' :: _ => scanWord ['f', 'a', 'l', 's', 'e'] (.bool false) cs
    | '"' :: rest => do
      let (written, rest) ← scanString rest
      pure (.string written, rest)
    | '[' :: rest =>
      match skipGap rest with
      | ']' :: rest => some (.array [], rest)
      | rest => do
        let (items, rest) ← scanItems budget rest
        pure (.array items, rest)
    | '\x7b' :: rest =>
      match skipGap rest with
      | '\x7d' :: rest => some (.object [], rest)
      | rest => do
        let (members, rest) ← scanMembers budget rest
        pure (.object members, rest)
    | _ => do
      let (numeral, rest) ← scanNumber cs
      pure (.number numeral, rest)

/-- The items of an array up to its closing bracket; there is at least one. -/
def scanItems : Nat → List Char → Option (List Json × List Char)
  | 0, _ => none
  | budget + 1, cs => do
    let (item, cs) ← scanValue budget cs
    match skipGap cs with
    | ']' :: rest => pure ([item], rest)
    | ',' :: rest => do
      let (items, rest) ← scanItems budget (skipGap rest)
      pure (item :: items, rest)
    | _ => none

/-- The members of an object up to its closing brace; there is at least one. -/
def scanMembers : Nat → List Char → Option (List (List Char × Json) × List Char)
  | 0, _ => none
  | budget + 1, cs =>
    match cs with
    | '"' :: rest => do
      let (key, rest) ← scanString rest
      match skipGap rest with
      | ':' :: rest => do
        let (value, rest) ← scanValue budget (skipGap rest)
        match skipGap rest with
        | '\x7d' :: rest => pure ([(key, value)], rest)
        | ',' :: rest => do
          let (members, rest) ← scanMembers budget (skipGap rest)
          pure ((key, value) :: members, rest)
        | _ => none
      | _ => none
    | _ => none

end

/-- The value of a text. -/
def readChars? (cs : List Char) : Option Json := do
  let (value, rest) ← scanValue (2 * cs.length + 2) (skipGap cs)
  if (skipGap rest).isEmpty then pure value else none

/-- The value of a text. -/
def read? (s : String) : Option Json := readChars? s.toList

end CloudFleet.Json
