/-!
# Civil dates

Dates of the Gregorian calendar, extended to all years, against the number of days since 1970-01-01. Years come in
cycles of 400, 100 and 4 years, whose last member is the odd one out; `Date.ofDays` peels the cycles off and
`Date.days` adds them up again.
-/

set_option autoImplicit false

namespace CloudFleet

/-- A day of the calendar: year, month from 1, day of the month from 1. -/
structure Date where
  year : Int
  month : Nat
  day : Nat
deriving DecidableEq, Inhabited

namespace Date

/-- Whether a year has 366 days. -/
def isLeap (y : Int) : Bool := y % 4 == 0 && (y % 100 != 0 || y % 400 == 0)

/-- The lengths of the months of a year. -/
def monthLengths (y : Int) : List Nat :=
  [31, if isLeap y then 29 else 28, 31, 30, 31, 30, 31, 31, 30, 31, 30, 31]

/-- The number of days from 0001-01-01 to the first day of a year. -/
def yearStart (y : Int) : Int := 365 * (y - 1) + (y - 1) / 4 - (y - 1) / 100 + (y - 1) / 400

/-- The number of days from 0001-01-01 to 1970-01-01. -/
def epoch : Int := 719162

/-- The days before the month at an index (from 0), given the lengths of the months. -/
def daysBefore (lengths : List Nat) (index : Nat) : Nat := (lengths.take index).foldl (· + ·) 0

/-- The number of days from 1970-01-01 to a date. -/
def days (d : Date) : Int :=
  yearStart d.year + daysBefore (monthLengths d.year) (d.month - 1) + (d.day - 1 : Nat) - epoch

/-- Whether a date is in the calendar. -/
def isValid (d : Date) : Bool :=
  match (monthLengths d.year)[d.month - 1]? with
  | some length => 1 ≤ d.month && 1 ≤ d.day && d.day ≤ length
  | none => false

/-- The index of the month (from 0) that holds a day of the year (from 0), and the day's place in it (from 0). -/
def splitMonths : List Nat → Nat → Nat × Nat
  | [], n => (0, n)
  | length :: lengths, n =>
    if n < length then (0, n) else
      let rest := splitMonths lengths (n - length)
      (rest.1 + 1, rest.2)

/-- The date so many days after 1970-01-01. -/
def ofDays (n : Int) : Date :=
  let n := n + epoch
  let quads := n / 146097
  let inQuad := n % 146097
  let centuries := min 3 (inQuad / 36524)
  let inCentury := inQuad - centuries * 36524
  let fours := inCentury / 1461
  let inFour := inCentury % 1461
  let ones := min 3 (inFour / 365)
  let year := 400 * quads + 100 * centuries + 4 * fours + ones + 1
  let split := splitMonths (monthLengths year) (inFour - ones * 365).toNat
  ⟨year, split.1 + 1, split.2 + 1⟩

end Date

/-- A number in decimal, with zeros in front up to a width. -/
def zeroPadded (width n : Nat) : String :=
  let digits := toString n
  .ofList (List.replicate (width - digits.length) '0') ++ digits

/-- The text of a year: four digits, and with a sign where it is negative or has more than four. -/
def Date.yearText (y : Int) : String :=
  if 0 ≤ y ∧ y ≤ 9999 then zeroPadded 4 y.toNat
  else (if y < 0 then "-" else "+") ++ zeroPadded 4 y.natAbs

/-- A date as year, month and day with dashes between them. -/
def Date.text (d : Date) : String := s!"{yearText d.year}-{zeroPadded 2 d.month}-{zeroPadded 2 d.day}"

end CloudFleet
