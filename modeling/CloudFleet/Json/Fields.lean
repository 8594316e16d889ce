import CloudFleet.Decimal.Text
import CloudFleet.Json.Basic

/-!
# Reading records from JSON

What a value means to a reader: texts, machine words, floats, lists, records and alternatives. A record is an object,
in which unknown fields are passed over and known ones may stand once, or an array of the fields in their order.
Every reader answers `none` for a value it does not accept.
-/

set_option autoImplicit false

namespace CloudFleet.Json

variable {α β : Type}

/-! ## Scalars -/

/-- The text of a string. -/
def text? : Json → Option String
  | .string written => (unquote? written).map String.ofList
  | _ => none

/-- A truth value. -/
def bool? : Json → Option Bool
  | .bool b => some b
  | _ => none

/-- A natural number below a limit: digits and nothing else. -/
def natBelow? (limit : Nat) : Json → Option Nat
  | .number numeral =>
    if numeral.all Char.isDigit && decide (Text.digitsValue numeral < limit) then some (Text.digitsValue numeral) else none
  | _ => none

/-- A word of 64 bits. -/
def word64? (j : Json) : Option UInt64 := (natBelow? (1 <<< 64) j).map UInt64.ofNat

/-- A word of 16 bits. -/
def word16? (j : Json) : Option UInt16 := (natBelow? (1 <<< 16) j).map UInt16.ofNat

/-- An integer: digits, with a minus sign for a negative one. -/
def int? : Json → Option Int
  | .number ('-' :: digits) => if digits.all Char.isDigit then some (-(Text.digitsValue digits : Int)) else none
  | .number digits => if digits.all Char.isDigit then some (Text.digitsValue digits) else none
  | _ => none

/-- The value of a numeral. -/
def numeral (cs : List Char) : Decimal.Numeral :=
  let (negative, cs) := match cs with
    | '-' :: rest => (true, rest)
    | _ => (false, cs)
  let whole := cs.takeWhile Char.isDigit
  let rest := cs.dropWhile Char.isDigit
  let (fraction, rest) := match rest with
    | '.' :: rest => (rest.takeWhile Char.isDigit, rest.dropWhile Char.isDigit)
    | _ => ([], rest)
  let exponent : Int := match rest with
    | _ :: '-' :: ds => -(Text.digitsValue ds : Int)
    | _ :: '+' :: ds => Text.digitsValue ds
    | _ :: ds => Text.digitsValue ds
    | [] => 0
  ⟨negative, Text.digitsValue (whole ++ fraction), exponent - fraction.length⟩

/-- A finite float: the one nearest to the number. -/
def float? : Json → Option Float
  | .number cs =>
    let x := (numeral cs).toFloat
    if x.isFinite then some x else none
  | _ => none

/-- A float as it is written in records. -/
def ofFloat (x : Float) : Json :=
  if x.isFinite then .number (Decimal.Layout.record.text x).toList else .null

/-- A word of 64 bits as a numeral. -/
def ofWord64 (n : UInt64) : Json := ofNat n.toNat

/-- A word of 16 bits as a numeral. -/
def ofWord16 (n : UInt16) : Json := ofNat n.toNat

/-! ## Composites -/

/-- A value or null. -/
def nullable (read : Json → Option α) : Json → Option (Option α)
  | .null => some none
  | j => (read j).map some

/-- A value, or null for none. -/
def ofOption (write : α → Json) : Option α → Json
  | some a => write a
  | none => .null

/-- A list of values. -/
def list? (read : Json → Option α) : Json → Option (List α)
  | .array items => items.mapM read
  | _ => none

/-- Two values in an array. -/
def pair? (first : Json → Option α) (second : Json → Option β) : Json → Option (α × β)
  | .array [a, b] => do
    let a ← first a
    let b ← second b
    pure (a, b)
  | _ => none

/-- A name: a string, or an object with the name as its only key and null under it. -/
def name? : Json → Option String
  | .object [(key, .null)] => (unquote? key).map String.ofList
  | j => text? j

/-! ## Records -/

/-- The values under a name. -/
def valuesOf (name : String) (members : List (List Char × Json)) : List Json :=
  members.filterMap fun m => if unquote? m.1 = some name.toList then some m.2 else none

/-- The fields of a record, in their order. -/
structure Fields where
  /-- What stands for each field, if anything does. -/
  slots : List (Option Json)
  /-- Whether the fields are given by their places. -/
  positional : Bool

/-- The fields of the given names. -/
def fields? (names : List String) : Json → Option Fields
  | .object members =>
    if members.all (fun m => (unquote? m.1).isSome)
        && names.all (fun n => decide ((valuesOf n members).length ≤ 1)) then
      some ⟨names.map fun n => (valuesOf n members).head?, false⟩
    else none
  | .array items =>
    if items.length ≤ names.length then
      some ⟨(List.range names.length).map fun i => items[i]?, true⟩
    else none
  | _ => none

namespace Fields

/-- What stands for the field at a place. -/
def slot (f : Fields) (i : Nat) : Option Json := (f.slots[i]?).getD none

/-- A field that must be there. -/
def required (f : Fields) (i : Nat) (read : Json → Option α) : Option α := (f.slot i).bind read

/-- A field that may be null, and may be left out where fields go by their names. -/
def optional (f : Fields) (i : Nat) (read : Json → Option α) : Option (Option α) :=
  match f.slot i with
  | some j => nullable read j
  | none => if f.positional then none else some none

/-- A field that takes a default where it is left out. -/
def orElse (f : Fields) (i : Nat) (default : α) (read : Json → Option α) : Option α :=
  match f.slot i with
  | some j => read j
  | none => some default

end Fields

/-- The value under a key of an object, null if there is none. -/
def get (j : Json) (name : String) : Json :=
  match j with
  | .object members => (valuesOf name members).headD .null
  | _ => .null

/-- Whether an object has a key. -/
def has (j : Json) (name : String) : Bool :=
  match j with
  | .object members => !(valuesOf name members).isEmpty
  | _ => false

/-- The items of an array. -/
def items : Json → List Json
  | .array items => items
  | _ => []

/-- Whether a value is null. -/
def isNull : Json → Bool
  | .null => true
  | _ => false

end CloudFleet.Json
