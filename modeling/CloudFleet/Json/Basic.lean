import CloudFleet.Text.Digit

/-!
# JSON values

A value keeps its numbers and strings as they are written: a number is its numeral, a string the text between its
quotes with the escapes in place. Nothing is lost by reading a text into such a tree, and what a numeral or a string
means is asked of it only where it is used. `Json.quote` and `Json.unquote?` go between texts and their written form.
-/

set_option autoImplicit false

namespace CloudFleet

/-- A JSON value as it is written. -/
inductive Json
  | null
  | bool (value : Bool)
  /-- A number by its numeral. -/
  | number (numeral : List Char)
  /-- A string by what stands between its quotes. -/
  | string (written : List Char)
  | array (items : List Json)
  /-- An object by its members in order; a key is what stands between its quotes. -/
  | object (members : List (List Char × Json))
deriving Inhabited

namespace Json

/-- The value of a hexadecimal digit, in either case. -/
def hexValue? (c : Char) : Option Nat :=
  let n := c.toNat
  if 48 ≤ n ∧ n ≤ 57 then some (n - 48)
  else if 97 ≤ n ∧ n ≤ 102 then some (n - 87)
  else if 65 ≤ n ∧ n ≤ 70 then some (n - 55)
  else none

/-- A character as it is written in a string: quotes, backslashes and the controls below the space are escaped. -/
def quoteChar (c : Char) : List Char :=
  if c = '"' then ['\\', '"']
  else if c = '\\' then ['\\', '\\']
  else if c.toNat = 8 then ['\\', 'b']
  else if c.toNat = 9 then ['\\', 't']
  else if c.toNat = 10 then ['\\', 'n']
  else if c.toNat = 12 then ['\\', 'f']
  else if c.toNat = 13 then ['\\', 'r']
  else if c.toNat < 32 then ['\\', 'u', '0', '0', Text.hexDigit (c.toNat / 16), Text.hexDigit (c.toNat % 16)]
  else [c]

/-- The written form of a text, without the quotes around it. -/
def quote (cs : List Char) : List Char := cs.flatMap quoteChar

/-- The code unit of four hexadecimal digits. -/
def unit? (a b c d : Char) : Option Nat := do
  let a ← hexValue? a
  let b ← hexValue? b
  let c ← hexValue? c
  let d ← hexValue? d
  pure (((a * 16 + b) * 16 + c) * 16 + d)

/-- The character of an escape of one letter. -/
def escaped? (c : Char) : Option Char :=
  if c = '"' ∨ c = '\\' ∨ c = '/' then some c
  else if c = 'b' then some (.ofNat 8)
  else if c = 'f' then some (.ofNat 12)
  else if c = 'n' then some '\n'
  else if c = 'r' then some '\r'
  else if c = 't' then some '\t'
  else none

/-- The text of a written form. A pair of surrogates is one character; a surrogate that stands alone is none, and
neither is a control character or an unknown escape. -/
def unquote? : List Char → Option (List Char)
  | [] => some []
  | '\\' :: 'u' :: a :: b :: c :: d :: rest => do
    let high ← unit? a b c d
    if 0xDC00 ≤ high ∧ high ≤ 0xDFFF then none
    else if 0xD800 ≤ high ∧ high ≤ 0xDBFF then
      match rest with
      | '\\' :: 'u' :: e :: f :: g :: h :: rest => do
        let low ← unit? e f g h
        if 0xDC00 ≤ low ∧ low ≤ 0xDFFF then
          let tail ← unquote? rest
          pure (Char.ofNat (0x10000 + (high - 0xD800) * 0x400 + (low - 0xDC00)) :: tail)
        else none
      | _ => none
    else
      let tail ← unquote? rest
      pure (Char.ofNat high :: tail)
  | '\\' :: c :: rest => do
    let c ← escaped? c
    let tail ← unquote? rest
    pure (c :: tail)
  | ['\\'] => none
  | c :: rest => do
    if c = '"' ∨ c.toNat < 32 then none
    else
      let tail ← unquote? rest
      pure (c :: tail)

/-- The string with a given text. -/
def ofText (s : String) : Json := .string (quote s.toList)

/-- A text, or null. -/
def ofText? : Option String → Json
  | some s => ofText s
  | none => null

/-- The natural number as a numeral. -/
def ofNat (n : Nat) : Json := .number (Nat.toDigits 10 n)

/-- The integer as a numeral. -/
def ofInt (n : Int) : Json :=
  .number (if n < 0 then '-' :: Nat.toDigits 10 n.natAbs else Nat.toDigits 10 n.natAbs)

/-- The array of texts. -/
def ofTexts (ss : List String) : Json := .array (ss.map ofText)

/-- The object with the given texts as keys. -/
def record (members : List (String × Json)) : Json :=
  .object (members.map fun m => (quote m.1.toList, m.2))

end Json

end CloudFleet
