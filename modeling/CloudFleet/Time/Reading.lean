import CloudFleet.Text.Blank
import CloudFleet.Text.Digit
import CloudFleet.Time.Instant

/-!
# Reading instants

The texts accepted for an instant: `year-month-dayThour:minute:second.fractionOFFSET`. Months, days, hours, minutes
and seconds may have one digit, a year without a sign has at most four; blanks may stand before each number and each
separator; `T` may be `t` or a space; the offset is `Z`, `UTC`, or hours and minutes with a sign. Second 60 is a leap
second. The instant read is in universal time.
-/

set_option autoImplicit false

namespace CloudFleet.Instant

open Text (digitsValue trimStart)

/-- The characters that are left of an input. -/
private abbrev Rest := List Char

/-- The leading digits of an input, `most` at the most, and what follows them; there must be one. -/
def scanDigits (most : Nat) (cs : List Char) : Option (List Char × Rest) :=
  match (cs.take most).takeWhile Char.isDigit with
  | [] => none
  | ds => some (ds, cs.drop ds.length)

/-- A number of at most `most` digits, after blanks. -/
def scanNumber (most : Nat) (cs : List Char) : Option (Nat × Rest) := do
  let (ds, rest) ← scanDigits most (trimStart cs)
  pure (digitsValue ds, rest)

/-- A year, after blanks: with a sign it may have any number of digits. -/
def scanYear (cs : List Char) : Option (Int × Rest) :=
  match trimStart cs with
  | '-' :: rest => do
    let (ds, rest) ← scanDigits rest.length rest
    pure (-(digitsValue ds : Int), rest)
  | '+' :: rest => do
    let (ds, rest) ← scanDigits rest.length rest
    pure ((digitsValue ds : Int), rest)
  | rest => do
    let (n, rest) ← scanNumber 4 rest
    pure ((n : Int), rest)

/-- A given character, after blanks. -/
def scanMark (c : Char) (cs : List Char) : Option Rest :=
  match trimStart cs with
  | d :: rest => if d = c then some rest else none
  | [] => none

/-- A date. -/
def scanDate (cs : List Char) : Option (Date × Rest) := do
  let (year, cs) ← scanYear cs
  let cs ← scanMark '-' cs
  let (month, cs) ← scanNumber 2 cs
  let cs ← scanMark '-' cs
  let (day, cs) ← scanNumber 2 cs
  let date : Date := ⟨year, month, day⟩
  if date.isValid then pure (date, cs) else none

/-- The nanoseconds written behind a point; digits after the ninth do not count. Without a point they are zero. -/
def scanFraction (cs : List Char) : Option (Nat × Rest) :=
  match cs with
  | '.' :: rest => do
    let (ds, rest) ← scanDigits 9 rest
    pure (digitsValue ds * Nat.pow 10 (9 - ds.length), rest.dropWhile Char.isDigit)
  | _ => some (0, cs)

/-- The seconds of the day, and the nanoseconds, of a time of day. -/
def scanClock (cs : List Char) : Option (Nat × Nat × Rest) := do
  let (hour, cs) ← scanNumber 2 cs
  let cs ← scanMark ':' cs
  let (minute, cs) ← scanNumber 2 cs
  let cs ← scanMark ':' cs
  let (second, cs) ← scanNumber 2 cs
  let (nanos, cs) ← scanFraction cs
  if hour ≤ 23 ∧ minute ≤ 59 ∧ second ≤ 60 then
    let leap := second / 60
    pure (hour * 3600 + minute * 60 + (second - leap), nanos + leap * nanosPerSecond, trimStart cs)
  else none

/-- Two digits, the first at most `top`. -/
def scanPair (top : Nat) (cs : List Char) : Option (Nat × Rest) :=
  match cs with
  | a :: b :: rest =>
    if a.isDigit && b.isDigit && digitsValue [a] ≤ top then some (digitsValue [a, b], rest) else none
  | _ => none

/-- The offset from universal time, in seconds: less than a day. -/
def scanOffset (cs : List Char) : Option (Int × Rest) :=
  match cs with
  | 'Z' :: rest | 'z' :: rest => some (0, rest)
  | c :: rest =>
    if (cs.take 3).map Char.toUpper = ['U', 'T', 'C'] then some (0, cs.drop 3)
    else if c = '+' ∨ c = '-' ∨ c = '−' then do
      let (hours, rest) ← scanPair 9 rest
      let (minutes, rest) ← scanPair 5 (rest.dropWhile fun d => d == ':' || Text.isBlank d)
      if hours ≤ 23 then
        let seconds : Int := hours * 3600 + minutes * 60
        pure (if c = '+' then seconds else -seconds, rest)
      else none
    else none
  | [] => none

/-- The instant that a text names. -/
def read? (s : String) : Option Instant := do
  let (date, cs) ← scanDate s.toList
  match cs with
  | sep :: cs =>
    if sep = 'T' ∨ sep = 't' ∨ sep = ' ' then
      let (seconds, nanos, cs) ← scanClock cs
      let (offset, cs) ← scanOffset cs
      let t : Instant := ⟨date.days * daySeconds + seconds - offset, nanos⟩
      if (trimStart cs).isEmpty && t.inRange then pure t else none
    else none
  | [] => none

end CloudFleet.Instant
