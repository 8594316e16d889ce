import CloudFleet.Json.Fields

/-!
# Loose reading

Values from JSON where what is missing, or is something else, counts as empty: for texts that describe a rehearsal,
in which nearly everything may be left out.
-/

set_option autoImplicit false

namespace CloudFleet.Json

/-- The text under a key, if there is one. -/
def textAt? (j : Json) (key : String) : Option String := text? (get j key)

/-- The text under a key. -/
def textAt (j : Json) (key : String) : String := (textAt? j key).getD ""

/-- The texts in an array. -/
def texts (j : Json) : List String := (items j).map fun i => (text? i).getD ""

/-- The texts under a key. -/
def textsAt (j : Json) (key : String) : List String := texts (get j key)

/-- The items under a key. -/
def itemsAt (j : Json) (key : String) : List Json := items (get j key)

/-- Whether there is something under a key. -/
def hasAt (j : Json) (key : String) : Bool := !isNull (get j key)

/-- The truth value under a key, if there is one. -/
def flagAt? (j : Json) (key : String) : Option Bool := bool? (get j key)

/-- Whether true stands under a key. -/
def flagAt (j : Json) (key : String) : Bool := (flagAt? j key).getD false

/-- The natural number that a value stands for. -/
def nat (j : Json) : Nat := ((int? j).getD 0).toNat

/-- The natural number under a key, if there is one. -/
def natAt? (j : Json) (key : String) : Option Nat := (int? (get j key)).map Int.toNat

/-- The natural number under a key, or a default. -/
def natAt (j : Json) (key : String) (default : Nat) : Nat := (natAt? j key).getD default

/-- What is given under a key, which may be nothing. -/
def givenAt (j : Json) (key : String) : Option (Option String) :=
  if has j key then some (textAt? j key) else none

/-- An item of an array. -/
def item (j : Json) (i : Nat) : Json := ((items j)[i]?).getD .null

/-- The text of an item. -/
def itemText (j : Json) (i : Nat) : String := (text? (item j i)).getD ""

/-- The number of an item. -/
def itemNat (j : Json) (i : Nat) : Nat := nat (item j i)

/-- The truth value of an item. -/
def itemFlag (j : Json) (i : Nat) : Bool := (bool? (item j i)).getD false

/-- The object without the members that are null. -/
def withoutNulls : Json → Json
  | .object members => .object (members.filter fun m => !isNull m.2)
  | .null => .object []
  | j => j

/-- The object with another value under a key. -/
def put (key : String) (value : Json) : Json → Json
  | .object members =>
    .object ((members.filter fun m => unquote? m.1 != some key.toList) ++ [(quote key.toList, value)])
  | _ => record [(key, value)]

/-- A successful result. -/
def okay (j : Json) : Json := record [("ok", j)]

/-- An error by its kind and its wording. -/
def failure (kind message : String) : Json := record [("error", ofText kind), ("message", ofText message)]

/-- An error whose wording is not ours. -/
def foreign (kind : String) : Json := record [("error", ofText kind)]

/-- A result, by the forms of its value and its error. -/
def ofExcept {ε α : Type} (error : ε → Json) (value : α → Json) : Except ε α → Json
  | .ok a => okay (value a)
  | .error e => error e

end CloudFleet.Json
