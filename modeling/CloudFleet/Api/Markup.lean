/-!
# Marked-up texts

The provider answers in marked-up texts: elements that hold elements or text. `Markup.write` writes one; the questions
asked of one are for the elements of a name and the text in them.
-/

set_option autoImplicit false

namespace CloudFleet

/-- A piece of a marked-up text. -/
inductive Markup
  | text (content : String)
  | element (name : String) (children : List Markup)
deriving Inhabited

namespace Markup

/-! ## Writing -/

/-- A character as it is written in a text. -/
def escapeChar (c : Char) : List Char :=
  match c with
  | '&' => "&amp;".toList
  | '<' => "&lt;".toList
  | '>' => "&gt;".toList
  | c => [c]

/-- A text as it is written. -/
def escape (s : String) : String := .ofList (s.toList.flatMap escapeChar)

mutual

/-- A piece as it is written. -/
def write : Markup → String
  | text content => escape content
  | element name children => s!"<{name}>{writeAll children}</{name}>"

/-- Pieces as they are written one after the other. -/
def writeAll : List Markup → String
  | [] => ""
  | m :: ms => write m ++ writeAll ms

end

/-! ## Questions -/

/-- What an element holds. -/
def children : Markup → List Markup
  | text _ => []
  | element _ children => children

/-- Whether a piece is an element of a name. -/
def isNamed (name : String) : Markup → Bool
  | text _ => false
  | element n _ => n == name

/-- The elements of a name that an element holds. -/
def named (m : Markup) (name : String) : List Markup := m.children.filter (isNamed name)

/-- Whether a character may stand between elements without meaning anything. -/
def isSpace (c : Char) : Bool := c = ' ' || c = '\t' || c = '\n' || c = '\r'

/-- The text that an element holds. A text of nothing but space is none. -/
def content (m : Markup) : String :=
  let all := String.join (m.children.map fun piece => match piece with
    | text s => s
    | element .. => "")
  if all.toList.all isSpace then "" else all

/-- The last element of a name that an element holds. -/
def part? (m : Markup) (name : String) : Option Markup := (m.named name).getLast?

/-- The text in the last element of a name that an element holds. -/
def field? (m : Markup) (name : String) : Option String := (m.part? name).map content

/-- The items of the lists of a name that an element holds. -/
def entries (m : Markup) (name : String) : List Markup := (m.named name).flatMap fun list => list.named "item"

end Markup

end CloudFleet
