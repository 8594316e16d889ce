import CloudFleet.Remote.Session

/-!
# The words of a command line

A POSIX shell parts a line at blanks and takes the quotes off its words: between quotes and behind a backslash
characters stand for themselves. `Posix.words?` is this reading, character by character. It gives no words where a shell
would do anything else with the line: at an operator, an expansion, a pattern, a comment or an assignment, and where a
quote is left open.

A text that is written as a word is read as one, whatever it holds (`Posix.read_shellWord`). Hence a command that runs
under another user is a line of the words that are meant, with the command as the last of them
(`Session.words?_elevate`).
-/

set_option autoImplicit false

namespace CloudFleet

namespace Posix

/-! ## Reading a line -/

/-- What the next character of a line is read as. -/
inductive Mode
  | bare
  /-- Behind a backslash outside quotes. -/
  | escaped
  /-- Between single quotes. -/
  | single
  /-- Between double quotes. -/
  | double
  /-- Behind a backslash between double quotes. -/
  | doubleEscaped
deriving DecidableEq

/-- Where the reading of a line stands. -/
structure Reading where
  /-- The words that have ended. -/
  done : List (List Char) := []
  /-- The characters of a word that has begun, without its quotes. -/
  word : Option (List Char) := none
  mode : Mode := .bare
deriving DecidableEq

/-- Whether a character outside quotes may be more to a shell than itself: an operator, the end of the line, an
expansion, a pattern, a comment or a reserved word. -/
def isSpecial (c : Char) : Bool := "|&;<>()$`*?[]^!#~%\x7b\x7d\n".toList.contains c

/-- Whether a backslash between double quotes takes the meaning off a character. -/
def isEscapable (c : Char) : Bool := "$`\"\\\n".toList.contains c

namespace Reading

/-- The reading with more characters in its word, which begins here if none has begun. -/
def add (r : Reading) (cs : List Char) : Reading := { r with word := some (r.word.getD [] ++ cs) }

/-- The reading in another mode. -/
def under (r : Reading) (mode : Mode) : Reading := { r with mode }

/-- The words if the line ends here. -/
def words (r : Reading) : List (List Char) := r.done ++ r.word.toList

/-- The reading after another character, if a shell goes on parting words there. -/
def step (r : Reading) (c : Char) : Option Reading :=
  match r.mode with
  | .bare =>
    if c = ' ' ∨ c = '\t' then some ⟨r.words, none, .bare⟩
    else if c = '\'' then some ((r.add []).under .single)
    else if c = '"' then some ((r.add []).under .double)
    else if c = '\\' then some (r.under .escaped)
    -- what stands before the first word can be an assignment
    else if isSpecial c ∨ c = '=' ∧ r.done = [] then none
    else some (r.add [c])
  | .escaped => some (if c = '\n' then r.under .bare else (r.add [c]).under .bare)
  | .single => some (if c = '\'' then r.under .bare else r.add [c])
  | .double =>
    if c = '"' then some (r.under .bare)
    else if c = '\\' then some (r.under .doubleEscaped)
    else if "$`".toList.contains c then none
    else some (r.add [c])
  | .doubleEscaped =>
    if c = '\n' then some (r.under .double)
    else some ((r.add (if isEscapable c then [c] else ['\\', c])).under .double)

end Reading

/-- The reading of more characters. -/
def read (r : Reading) (cs : List Char) : Option Reading := cs.foldlM Reading.step r

/-- The words of a line, without their quotes. -/
def words? (line : String) : Option (List String) :=
  (read {} line.toList).bind fun r => if r.mode = .bare then some (r.words.map String.ofList) else none

theorem read_cons (r : Reading) (c : Char) (cs : List Char) : read r (c :: cs) = (r.step c).bind fun r => read r cs :=
  List.foldlM_cons

theorem read_append (r : Reading) (cs ds : List Char) : read r (cs ++ ds) = (read r cs).bind fun r => read r ds :=
  List.foldlM_append

theorem read_append_of_some {r s : Reading} {cs : List Char} (h : read r cs = some s) (ds : List Char) :
    read r (cs ++ ds) = read s ds := by
  rw [read_append, h, Option.bind_some]

theorem Reading.add_add (r : Reading) (cs ds : List Char) : (r.add cs).add ds = r.add (cs ++ ds) := by
  simp [Reading.add]

/-! ## What is written as a word is read as it -/

/-- No character that needs no quoting is more to a shell than itself. -/
theorem not_special_of_isPlain {c : Char} (h : Remote.isPlain c = true) :
    (c ≠ ' ' ∧ c ≠ '\t' ∧ c ≠ '\'' ∧ c ≠ '"' ∧ c ≠ '\\') ∧ isSpecial c = false := by
  have hquoted : [' ', '\t', '\'', '"', '\\'].any Remote.isPlain = false := by decide
  have hspecial : "|&;<>()$`*?[]^!#~%\x7b\x7d\n".toList.any Remote.isPlain = false := by decide
  have hne {d : Char} (hd : d ∈ [' ', '\t', '\'', '"', '\\']) : c ≠ d := by
    rintro rfl
    exact List.any_eq_false.mp hquoted c hd h
  refine ⟨⟨hne (by decide), hne (by decide), hne (by decide), hne (by decide), hne (by decide)⟩, ?_⟩
  rw [isSpecial, List.contains_eq_mem, decide_eq_false_iff_not]
  exact fun hm => List.any_eq_false.mp hspecial c hm h

/-- Behind the first word, a character that needs no quoting stands for itself. -/
theorem step_of_isPlain {r : Reading} (hmode : r.mode = .bare) (hdone : r.done ≠ []) {c : Char}
    (h : Remote.isPlain c = true) : r.step c = some (r.add [c]) := by
  obtain ⟨⟨hblank, htab, hsingle, hdouble, hslash⟩, hspecial⟩ := not_special_of_isPlain h
  unfold Reading.step
  rw [hmode]
  simp [hblank, htab, hsingle, hdouble, hslash, hspecial, hdone]

theorem read_plain {r : Reading} (hmode : r.mode = .bare) (hdone : r.done ≠ []) (begun : List Char) {cs : List Char}
    (h : ∀ c ∈ cs, Remote.isPlain c = true) : read (r.add begun) cs = some (r.add (begun ++ cs)) := by
  induction cs generalizing begun with
  | nil => rw [List.append_nil]; rfl
  | cons c cs ih =>
    rw [List.forall_mem_cons] at h
    rw [read_cons, step_of_isPlain (r := r.add begun) hmode hdone h.1, Option.bind_some, Reading.add_add,
      ih (begun ++ [c]) h.2, List.append_assoc]
    rfl

/-- A character as it is written between single quotes is read as itself, and the quotes are open again after it. -/
theorem read_quoteChar (r : Reading) (begun : List Char) (c : Char) :
    read ((r.add begun).under .single) (Remote.quoteChar c) = some ((r.add (begun ++ [c])).under .single) := by
  rw [← Reading.add_add]
  by_cases hc : c = '\'' ∨ c = '!'
  · rw [Remote.quoteChar, if_pos hc]
    -- the quotes are closed, and the character stands behind a backslash
    have hline : c ≠ '\n' := by rcases hc with rfl | rfl <;> decide
    simp [read, Reading.step, Reading.under, Reading.add, hline]
  · rw [Remote.quoteChar, if_neg hc]
    have hquote : c ≠ '\'' := fun h => hc (Or.inl h)
    simp [read, Reading.step, Reading.under, Reading.add, hquote]

theorem read_quoted (r : Reading) (begun cs : List Char) :
    read ((r.add begun).under .single) (cs.flatMap Remote.quoteChar) = some ((r.add (begun ++ cs)).under .single) := by
  induction cs generalizing begun with
  | nil => rw [List.append_nil]; rfl
  | cons c cs ih =>
    rw [List.flatMap_cons, read_append_of_some (read_quoteChar r begun c), ih, List.append_assoc]
    rfl

/-- **A text that is written as a word is read as it**: behind the first word of a line, its characters are those of
the text, and outside quotes the reading goes on. -/
theorem read_shellWord {r : Reading} (hmode : r.mode = .bare) (hdone : r.done ≠ []) (s : String) :
    read r (Remote.shellWord s).toList = some (r.add s.toList) := by
  unfold Remote.shellWord
  split
  · rename_i hplain
    rw [Bool.and_eq_true, Bool.not_eq_true', List.all_eq_true] at hplain
    obtain ⟨hne, hall⟩ := hplain
    cases hs : s.toList with
    | nil =>
      rw [String.toList_eq_nil_iff.mp hs] at hne
      cases hne
    | cons c cs =>
      rw [hs, List.forall_mem_cons] at hall
      rw [read_cons, step_of_isPlain hmode hdone hall.1, Option.bind_some, read_plain hmode hdone [c] hall.2]
      rfl
  · have hopen : r.step '\'' = some ((r.add []).under .single) := by
      unfold Reading.step
      rw [hmode]
      rfl
    have hclose : ((r.add s.toList).under .single).step '\'' = some (r.add s.toList) := by
      obtain ⟨done, word, mode⟩ := r
      cases hmode
      rfl
    rw [String.toList_ofList, List.cons_append, read_cons, hopen, Option.bind_some,
      read_append_of_some (read_quoted r [] s.toList), List.nil_append, read_cons, hclose]
    rfl

/-- The words of a line that ends in a text that is written as a word. -/
theorem words?_append_shellWord {front : String} {done : List (List Char)} (hdone : done ≠ [])
    (h : read {} front.toList = some ⟨done, none, .bare⟩) (s : String) :
    words? (front ++ Remote.shellWord s) = some (done.map String.ofList ++ [s]) := by
  rw [words?, String.toList_append, read_append_of_some h, read_shellWord rfl hdone s, Option.bind_some,
    if_pos (by rfl)]
  simp [Reading.words, Reading.add]

end Posix

/-! ## Commands under another user -/

namespace Session

/-- **A command runs under another user as it is.** The line that runs it has, for a shell, exactly the words that are
meant, and nothing in it is expanded, whatever the command and the name of the user hold: the command is the last word.
Where no other user is asked for, the command is the line. -/
theorem words?_elevate (options : RunOptions) (command : String) :
    match options.user, options.elevated with
    | none, false => elevate options command = command
    | none, true => Posix.words? (elevate options command) = some ["sudo", "-S", "bash", "-c", command]
    | some user, _ =>
      Posix.words? (elevate options command) = some ["sudo", "-S", "-u", user, "bash", "-c", command] := by
  unfold elevate
  cases options.user with
  | none =>
    cases options.elevated with
    | false => rfl
    | true =>
      have hfront : Posix.read {} "sudo -S bash -c ".toList =
          some ⟨["sudo".toList, "-S".toList, "bash".toList, "-c".toList], none, .bare⟩ := by decide
      exact Posix.words?_append_shellWord (by decide) hfront command
  | some user =>
    have hsudo : Posix.read {} "sudo -S -u ".toList =
        some ⟨["sudo".toList, "-S".toList, "-u".toList], none, .bare⟩ := by decide
    -- the name of the user is itself written as a word
    have hfront : Posix.read {} ("sudo -S -u " ++ Remote.shellWord user ++ " bash -c ").toList =
        some ⟨["sudo".toList, "-S".toList, "-u".toList, user.toList, "bash".toList, "-c".toList], none, .bare⟩ := by
      rw [String.toList_append, String.toList_append, List.append_assoc, Posix.read_append_of_some hsudo,
        Posix.read_append_of_some (Posix.read_shellWord rfl (by decide) user)]
      rfl
    have hwords := Posix.words?_append_shellWord (by simp) hfront command
    simp only [List.map_cons, List.map_nil, List.cons_append, List.nil_append, String.ofList_toList] at hwords
    exact hwords

example : Posix.words? (elevate { user := some "o'neil" } "echo $HOME\n!") =
    some ["sudo", "-S", "-u", "o'neil", "bash", "-c", "echo $HOME\n!"] := by decide

-- without quotes a shell would expand the variable
example : Posix.words? "sudo -S bash -c $HOME" = none := by decide

end Session

end CloudFleet
