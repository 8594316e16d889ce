import CloudFleet.Proofs.Remote.Words
import Mathlib.Data.List.Forall2

/-!
# Command lines that are chains

A POSIX shell runs the commands of a line one after the other where `&&` stands between them, the next one only if the
one before it succeeded (`Posix.runChain`). `Posix.chain?` reads the commands of such a line, each of them as its words.
A line that is joined of commands is read as these commands (`Posix.chain?_intercalate`).
-/

set_option autoImplicit false

namespace CloudFleet.Posix

/-! ## Reading a chain -/

/-- The words of a command that ends here; a command has at least one. -/
def Reading.command? (r : Reading) : Option (List String) :=
  if r.mode = .bare ∧ r.words ≠ [] then some (r.words.map String.ofList) else none

/-- Where the reading of a chain stands. -/
structure ChainReading where
  /-- The commands that have ended. -/
  done : List (List String) := []
  reading : Reading := {}
  /-- Whether the first of the two signs that part commands has been read. -/
  parting : Bool := false

namespace ChainReading

/-- The reading after another character. A single sign is no part of a chain. -/
def step (r : ChainReading) (c : Char) : Option ChainReading :=
  if r.parting then
    if c = '&' then r.reading.command?.map fun command => ⟨r.done ++ [command], {}, false⟩ else none
  else if r.reading.mode = .bare ∧ c = '&' then some { r with parting := true }
  else (r.reading.step c).map fun reading => { r with reading }

/-- The commands if the line ends here. -/
def commands? (r : ChainReading) : Option (List (List String)) :=
  if r.parting then none else r.reading.command?.map fun command => r.done ++ [command]

end ChainReading

/-- The commands of a line between which `&&` stands. -/
def chain? (line : String) : Option (List (List String)) :=
  (line.toList.foldlM ChainReading.step {}).bind ChainReading.commands?

/-- Within a command a chain is read as the command is. -/
theorem chain_read {r s : Reading} {cs : List Char} (h : read r cs = some s) (done : List (List String)) :
    cs.foldlM ChainReading.step ⟨done, r, false⟩ = some ⟨done, s, false⟩ := by
  induction cs generalizing r with
  | nil =>
    cases h
    rfl
  | cons c cs ih =>
    rw [read_cons] at h
    obtain ⟨next, hnext, hrest⟩ := Option.bind_eq_some_iff.mp h
    have hstep : ChainReading.step ⟨done, r, false⟩ c = some ⟨done, next, false⟩ := by
      have hsign : ¬(r.mode = .bare ∧ c = '&') := by
        rintro ⟨hbare, rfl⟩
        rw [Reading.step, hbare] at hnext
        cases hnext
      simp only [ChainReading.step, Bool.false_eq_true, if_false, if_neg hsign, hnext, Option.map_some]
    rw [List.foldlM_cons, hstep]
    exact ih hrest

/-- Behind a command, `&&` begins the next one. -/
theorem chain_and {r : Reading} {command : List String} (h : r.command? = some command) (done : List (List String)) :
    " && ".toList.foldlM ChainReading.step ⟨done, r, false⟩ = some ⟨done ++ [command], {}, false⟩ := by
  obtain ⟨⟨hbare, hwords⟩, hcommand⟩ := Option.ite_none_right_eq_some.mp h
  -- the blank before the signs ends the last word, and the one behind them begins none
  let ended : Reading := ⟨r.words, none, .bare⟩
  have hblank : ChainReading.step ⟨done, r, false⟩ ' ' = some ⟨done, ended, false⟩ := by
    have hstep : r.step ' ' = some ended := by
      rw [Reading.step, hbare]
      rfl
    simp [ChainReading.step, hstep]
  have hended : ended.command? = some command := by
    have hsame : ended.words = r.words := List.append_nil _
    rw [Reading.command?, hsame, if_pos ⟨rfl, hwords⟩, hcommand]
  have hsign : ChainReading.step ⟨done, ended, true⟩ '&' = some ⟨done ++ [command], {}, false⟩ := by
    simp [ChainReading.step, hended]
  calc " && ".toList.foldlM ChainReading.step ⟨done, r, false⟩
      = ['&', '&', ' '].foldlM ChainReading.step ⟨done, ended, false⟩ := by
        show [' ', '&', '&', ' '].foldlM ChainReading.step _ = _
        rw [List.foldlM_cons, hblank]
        rfl
    _ = [' '].foldlM ChainReading.step ⟨done ++ [command], {}, false⟩ := by
        show ['&', ' '].foldlM ChainReading.step ⟨done, ended, true⟩ = _
        rw [List.foldlM_cons, hsign]
        rfl
    _ = some ⟨done ++ [command], {}, false⟩ := rfl

/-- A line of words is a command if it has any. -/
theorem command?_of_words? {line : String} {command : List String} (h : words? line = some command)
    (hne : command ≠ []) : ∃ r, read {} line.toList = some r ∧ r.command? = some command := by
  obtain ⟨r, hread, hr⟩ := Option.bind_eq_some_iff.mp h
  obtain ⟨hbare, hwords⟩ := Option.ite_none_right_eq_some.mp hr
  cases hwords
  refine ⟨r, hread, if_pos ⟨hbare, fun hnone => hne ?_⟩⟩
  rw [hnone]
  rfl

/-- **A line that is joined of commands is read as these commands.** -/
theorem chain?_intercalate {steps : List String} {commands : List (List String)} (hsteps : steps ≠ [])
    (h : List.Forall₂ (fun step command => words? step = some command ∧ command ≠ []) steps commands) :
    chain? (" && ".intercalate steps) = some commands := by
  have hrest (done : List (List String)) :
      ((" && ".intercalate steps).toList.foldlM ChainReading.step ⟨done, {}, false⟩).bind ChainReading.commands?
        = some (done ++ commands) := by
    induction h generalizing done with
    | nil => exact absurd rfl hsteps
    | @cons step command steps commands hstep hlater ih =>
      obtain ⟨r, hread, hcommand⟩ := command?_of_words? hstep.1 hstep.2
      cases steps with
      | nil =>
        cases hlater
        rw [String.intercalate_singleton, chain_read hread, Option.bind_some, ChainReading.commands?,
          if_neg Bool.false_ne_true, hcommand]
        rfl
      | cons next steps =>
        rw [String.intercalate_cons_cons, String.toList_append, String.toList_append, List.append_assoc,
          List.foldlM_append, chain_read hread]
        show ((" && ".toList ++ _).foldlM ChainReading.step ⟨done, r, false⟩).bind _ = _
        rw [List.foldlM_append, chain_and hcommand]
        have hnext := ih (List.cons_ne_nil _ _) (done ++ [command])
        rw [List.append_assoc] at hnext
        exact hnext
  exact hrest []

/-! ## Texts that are read as a word -/

/-- Behind the first word of a command, a text is read as a word. -/
def Writes (text word : String) : Prop :=
  ∀ r : Reading, r.mode = .bare → r.done ≠ [] → read r text.toList = some (r.add word.toList)

theorem writes_shellWord (s : String) : Writes (Remote.shellWord s) s := fun _ hmode hdone =>
  read_shellWord hmode hdone s

/-- A text that needs no quotes is read as it is. -/
theorem writes_plain {s : String} (hne : s ≠ "") (h : s.toList.all Remote.isPlain = true) : Writes s s := by
  have hword : Remote.shellWord s = s := by
    rw [Remote.shellWord, h, if_pos]
    simpa using hne
  have hwrites := writes_shellWord s
  rwa [hword] at hwrites

/-- The words of a command whose last one is written so. -/
theorem words?_append {front : String} (done : List (List Char)) (hdone : done ≠ [])
    (h : read {} front.toList = some ⟨done, none, .bare⟩) {text word : String} (hlast : Writes text word) :
    words? (front ++ text) = some (done.map String.ofList ++ [word]) := by
  rw [words?, String.toList_append, read_append_of_some h, hlast _ rfl hdone, Option.bind_some, if_pos (by rfl)]
  simp [Reading.words, Reading.add]

/-! ## Running a chain -/

section Running

variable {τ : Type} (exec : List String → τ → Bool × τ)

/-- What a shell runs of a chain, with whether it succeeded: the next command only after one that did. -/
def runChain : List (List String) → τ → List (List String × Bool)
  | [], _ => []
  | command :: commands, t =>
    (command, (exec command t).1) :: if (exec command t).1 then runChain commands (exec command t).2 else []

/-- Commands were run in order from the first one on, each of them only after those before it had succeeded, and all of
them if none failed. -/
structure Stepwise (commands : List (List String)) (ran : List (List String × Bool)) : Prop where
  inOrder : ran.map Prod.fst <+: commands
  afterSuccess : ran.Pairwise fun earlier _ => earlier.2 = true
  whole : (∀ x ∈ ran, x.2 = true) → ran.map Prod.fst = commands

theorem stepwise_runChain (commands : List (List String)) (t : τ) : Stepwise commands (runChain exec commands t) := by
  induction commands generalizing t with
  | nil => exact ⟨List.prefix_rfl, .nil, fun _ => rfl⟩
  | cons command commands ih =>
    obtain ⟨horder, hafter, hwhole⟩ := ih (exec command t).2
    rw [runChain]
    cases hexec : (exec command t).1 with
    | true =>
      rw [if_pos rfl]
      exact ⟨List.cons_prefix_cons.mpr ⟨rfl, horder⟩, .cons (fun _ _ => rfl) hafter,
        fun hall => congrArg (command :: ·) (hwhole fun x hx => hall x (List.mem_cons_of_mem _ hx))⟩
    | false =>
      rw [if_neg Bool.false_ne_true]
      exact ⟨List.cons_prefix_cons.mpr ⟨rfl, List.nil_prefix⟩, List.pairwise_singleton _ _,
        fun hall => absurd (hall _ List.mem_cons_self) Bool.false_ne_true⟩

end Running

end CloudFleet.Posix
