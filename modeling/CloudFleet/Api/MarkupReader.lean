import CloudFleet.Api.Markup

/-!
# Reading marked-up texts

A text is cut into lexemes, the tags and what stands between them, and these are put together to a tree.
-/

set_option autoImplicit false

namespace CloudFleet.Markup

/-- A piece of a text before it is put together. -/
inductive Lexeme
  | opened (name : String)
  | closed (name : String)
  | text (content : String)
deriving DecidableEq

/-! ## Entities -/

/-- The value of a digit in a base up to sixteen. -/
def digitValue? (base : Nat) (c : Char) : Option Nat :=
  let n := c.toNat
  let value := if 48 ≤ n ∧ n ≤ 57 then n - 48 else if 97 ≤ n ∧ n ≤ 102 then n - 87
    else if 65 ≤ n ∧ n ≤ 70 then n - 55 else base
  if value < base then some value else none

/-- The number that digits of a base stand for. -/
def numeral? (base : Nat) (cs : List Char) : Option Nat :=
  if cs.isEmpty then none
  else cs.foldl (fun sum c => do
    let sum ← sum
    let d ← digitValue? base c
    pure (sum * base + d)) (some 0)

/-- The character of a number. -/
def charOf? (n : Nat) : Option Char := if n.isValidChar then some (.ofNat n) else none

/-- The character that an entity stands for. -/
def entity? (name : List Char) : Option Char :=
  match name with
  | '#' :: 'x' :: digits => (numeral? 16 digits).bind charOf?
  | '#' :: digits => (numeral? 10 digits).bind charOf?
  | name => [("amp", '&'), ("lt", '<'), ("gt", '>'), ("quot", '"'), ("apos", Char.ofNat 39)].lookup (.ofList name)

/-- A written text with its entities resolved; within one, what was read of its name, backwards. -/
def unescape? : (name : Option (List Char)) → List Char → Option (List Char)
  | none, [] => some []
  | some _, [] => none
  | none, '&' :: cs => unescape? (some []) cs
  | none, c :: cs => (unescape? none cs).map (c :: ·)
  | some name, ';' :: cs => do
    let c ← entity? name.reverse
    let rest ← unescape? none cs
    pure (c :: rest)
  | some name, c :: cs => unescape? (some (c :: name)) cs

/-! ## Lexemes -/

/-- The name at the front of a tag. -/
def tagName (cs : List Char) : String := .ofList (cs.takeWhile fun c => !isSpace c && c != '/')

/-- The lexemes of a tag by what stands between its brackets. Instructions, comments and declarations are none. -/
def tagLexemes (cs : List Char) : List Lexeme :=
  match cs with
  | '/' :: name => [.closed (tagName name)]
  | '?' :: _ => []
  | '!' :: _ => []
  | cs =>
    if cs.getLast? = some '/' then [.opened (tagName cs), .closed (tagName cs)] else [.opened (tagName cs)]

/-- Whether a bracket ends a tag of which these characters were read, backwards. -/
def endsTag (seen : List Char) : Bool :=
  if "!--".toList.isPrefixOf seen.reverse then "--".toList.isPrefixOf seen && 5 ≤ seen.length else true

/-- The lexeme of the text of which these characters were read, backwards, in front of others. -/
def withText? (seen : List Char) (lexemes : List Lexeme) : Option (List Lexeme) :=
  if seen.isEmpty then some lexemes
  else (unescape? none seen.reverse).map fun cs => .text (.ofList cs) :: lexemes

/-- The lexemes of a text of which some characters were read already, backwards: those of a tag, or of what stands
between tags. -/
def lexemes? : (inTag : Bool) → (seen : List Char) → List Char → Option (List Lexeme)
  | false, seen, [] => withText? seen []
  | true, _, [] => none
  | false, seen, '<' :: cs => (lexemes? true [] cs).bind (withText? seen)
  | false, seen, c :: cs => lexemes? false (c :: seen) cs
  | true, seen, '>' :: cs =>
    if endsTag seen then (lexemes? false [] cs).map (tagLexemes seen.reverse ++ ·) else lexemes? true ('>' :: seen) cs
  | true, seen, c :: cs => lexemes? true (c :: seen) cs

/-! ## Trees -/

/-- Whether nothing but space is left. -/
def isOver (lexemes : List Lexeme) : Bool :=
  lexemes.all fun l => match l with
    | .text s => s.toList.all isSpace
    | _ => false

/-- The tree that lexemes complete. The elements that are open come with what they hold so far, backwards. -/
def build? : List (String × List Markup) → List Lexeme → Option Markup
  | _, [] => none
  | [], .text s :: rest => if s.toList.all isSpace then build? [] rest else none
  | [], .closed _ :: _ => none
  | frames, .opened name :: rest => build? ((name, []) :: frames) rest
  | (name, held) :: frames, .text s :: rest => build? ((name, text s :: held) :: frames) rest
  | (name, held) :: frames, .closed other :: rest =>
    if name ≠ other then none
    else
      let done := element name held.reverse
      match frames with
      | [] => if isOver rest then some done else none
      | (outer, siblings) :: frames => build? ((outer, done :: siblings) :: frames) rest

/-- The element that a text is. -/
def read? (s : String) : Option Markup := (lexemes? false [] s.toList).bind (build? [])

end CloudFleet.Markup
