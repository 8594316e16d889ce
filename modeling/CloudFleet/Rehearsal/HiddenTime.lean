import CloudFleet.Json.Access
import CloudFleet.Json.Printer
import CloudFleet.Json.Reader

/-!
# Hidden times

What is told of a rehearsal that reads the clock is the same each time only without the times of day in it.
-/

set_option autoImplicit false

namespace CloudFleet.Rehearsal.HiddenTime

/-- The form of a time of day; a zero stands for any digit, a colon also for a dash, and the blank also for an
underline or a `T`. -/
def form : List Char := "0000-00-00 00:00:00".toList

/-- Whether a character can stand in a place of the form. -/
def fits (place c : Char) : Bool :=
  if place = '0' then c.isDigit
  else if place = ':' then c = ':' || c = '-'
  else if place = ' ' then c = ' ' || c = '_' || c = 'T'
  else c = place

/-- Whether a text begins with a time. -/
def beginsWithTime (cs : List Char) : Bool :=
  let start := cs.take form.length
  start.length = form.length && (form.zip start).all fun e => fits e.1 e.2

/-- A text with its times hidden, except for so many characters at its front that belong to a time. -/
def hidden : (skip : Nat) → List Char → List Char
  | _, [] => []
  | skip + 1, _ :: cs => hidden skip cs
  | 0, c :: cs =>
    if beginsWithTime (c :: cs) then "<TIME>".toList ++ hidden (form.length - 1) cs else c :: hidden 0 cs

/-- A value with the times in its texts hidden. -/
def hideIn (j : Json) : Json := (Json.readChars? (hidden 0 j.compact.toList)).getD j

end CloudFleet.Rehearsal.HiddenTime
