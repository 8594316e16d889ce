/-!
# Blank characters

`isBlank` is the Unicode property White_Space: 25 characters. `trim` strips blanks from both ends of a text, and
`firstWord?` is the first maximal run of characters that are not blank (`isBlank_of_isWhitespace`,
`firstWord?_eq_none_iff`).
-/

set_option autoImplicit false

namespace CloudFleet.Text

/-- The characters with the Unicode property White_Space. -/
def isBlank (c : Char) : Bool :=
  let n := c.toNat
  (9 ≤ n && n ≤ 13) || n == 0x20 || n == 0x85 || n == 0xA0 || n == 0x1680 || (0x2000 ≤ n && n ≤ 0x200A)
    || n == 0x2028 || n == 0x2029 || n == 0x202F || n == 0x205F || n == 0x3000

/-- The characters that are white space in ASCII are blank. -/
theorem isBlank_of_isWhitespace {c : Char} (h : c.isWhitespace = true) : isBlank c = true := by
  simp only [Char.isWhitespace, Bool.or_eq_true, decide_eq_true_eq] at h
  rcases h with ((rfl | rfl) | rfl) | rfl <;> decide

/-- The characters left after blanks are stripped from the front. -/
def trimStart (cs : List Char) : List Char := cs.dropWhile isBlank

/-- The characters left after blanks are stripped from the back. -/
def trimEnd (cs : List Char) : List Char := (cs.reverse.dropWhile isBlank).reverse

/-- A text without the blanks at its two ends. -/
def trim (s : String) : String := .ofList (trimEnd (trimStart s.toList))

/-- The first maximal run of characters that are not blank. -/
def firstWord? (s : String) : Option String :=
  match trimStart s.toList with
  | [] => none
  | c :: cs => some (.ofList ((c :: cs).takeWhile fun d => !isBlank d))

/-- Nothing is left exactly of characters that are all blank. -/
theorem trimStart_eq_nil_iff {cs : List Char} : trimStart cs = [] ↔ ∀ c ∈ cs, isBlank c = true := by
  induction cs with
  | nil => simp [trimStart]
  | cons c cs ih => by_cases h : isBlank c = true <;> simp_all [trimStart]

/-- A text has no first word exactly if it is blank throughout. -/
theorem firstWord?_eq_none_iff {s : String} : firstWord? s = none ↔ ∀ c ∈ s.toList, isBlank c = true := by
  rw [← trimStart_eq_nil_iff, firstWord?]
  split <;> simp_all

/-- A text without the character `c` at its end. -/
def dropTrailing (c : Char) (s : String) : String := .ofList ((s.toList.reverse.dropWhile (· == c)).reverse)

/-- Whether the characters `part` occur in a row in `cs`. -/
def occurs (part : List Char) : List Char → Bool
  | [] => part.isEmpty
  | c :: cs => part.isPrefixOf (c :: cs) || occurs part cs

/-- Whether `part` occurs in `s`. -/
def contains (s part : String) : Bool := occurs part.toList s.toList

/-- The characters `cs` with the first occurrence of `part` replaced by `new`. -/
def replaceFirstChars (part new : List Char) : List Char → List Char
  | [] => if part.isEmpty then new else []
  | c :: cs =>
    if part.isPrefixOf (c :: cs) then new ++ (c :: cs).drop part.length
    else c :: replaceFirstChars part new cs

/-- The text `s` with the first occurrence of `part` replaced by `new`. -/
def replaceFirst (s part new : String) : String :=
  .ofList (replaceFirstChars part.toList new.toList s.toList)

/-- `s` followed by as many spaces as make it `width` characters long. -/
def padRight (width : Nat) (s : String) : String :=
  s ++ .ofList (List.replicate (width - s.length) ' ')

/-- `s` behind as many spaces as make it `width` characters long. -/
def padLeft (width : Nat) (s : String) : String :=
  .ofList (List.replicate (width - s.length) ' ') ++ s

end CloudFleet.Text
