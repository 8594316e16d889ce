import CloudFleet.Bench.Run
import CloudFleet.Proofs.Text.Characters
import CloudFleet.Proofs.Text.Replacing

/-!
# The line that launches the workload

`launchLine` is the command line with a given number of rounds. Each host's line is that of the mark, with the first
mark in it replaced by the rounds of the host: the line with these rounds if no text before that place holds a mark of
its own (`Unmarked`), and only then (`commandFor_launch_iff`).
-/

set_option autoImplicit false

namespace CloudFleet

/-! ## Texts without a brace -/

/-- Whether no brace opens in a text. -/
def Braceless (s : String) : Prop := '\x7b' ∉ s.toList

instance (s : String) : Decidable (Braceless s) := inferInstanceAs (Decidable (¬_ ∈ _))

namespace Braceless

variable {s t : String}

theorem append (hs : Braceless s) (ht : Braceless t) : Braceless (s ++ t) := by
  intro h
  rw [String.toList_append] at h
  exact (List.mem_append.mp h).elim hs ht

/-- Numbers and instants have no brace. -/
theorem of_figures (h : Figures s) : Braceless s := h.not_mem (by decide)

theorem intercalate {sep : String} (hsep : Braceless sep) {words : List String} (h : ∀ w ∈ words, Braceless w) :
    Braceless (sep.intercalate words) := by
  intro hm
  obtain ⟨w, hw, hbrace⟩ := (Text.mem_intercalate_iff hsep words).mp hm
  exact h w hw hbrace

end Braceless

/-! ## The line -/

namespace Bench

/-- The launch command with a number of rounds, given as it is written. -/
def launchLine (c : BenchConfig) (p : BenchParams) (schedule : Schedule) (rounds : String) : String :=
  let float := Decimal.Layout.plain.text
  " ".intercalate
    [c.monitorCommand ++ " &> /dev/null &", "cd " ++ c.remotePath c.workloadDir ++ " &&", c.workloadCommand,
     "--start-at", "'" ++ schedule.start.stamp ++ "'", "--connection-lead-time", toString p.connectionLeadTime,
     "--propose-duration", float p.propose, "--acknowledge-duration", float p.acknowledge,
     "--vote-duration", float p.vote, "--num-rounds", rounds, "> " ++ c.stdLog ++ " 2>&1"]

/-- The launch command is the line with the mark. -/
theorem launchCommand_eq (c : BenchConfig) (p : BenchParams) (schedule : Schedule) :
    launchCommand c p schedule = launchLine c p schedule hostArgMark := rfl

/-- No text of the configuration that stands before the rounds holds a mark. -/
def Unmarked (c : BenchConfig) : Prop :=
  Text.contains c.monitorCommand hostArgMark = false
    ∧ Text.contains (c.remotePath c.workloadDir) hostArgMark = false
    ∧ Text.contains c.workloadCommand hostArgMark = false

instance (c : BenchConfig) : Decidable (Unmarked c) := inferInstanceAs (Decidable (_ ∧ _ ∧ _))

/-- The options between the command of the workload and the rounds. -/
def launchOptions (p : BenchParams) (schedule : Schedule) : List String :=
  let float := Decimal.Layout.plain.text
  ["--start-at", "'" ++ schedule.start.stamp ++ "'", "--connection-lead-time", toString p.connectionLeadTime,
   "--propose-duration", float p.propose, "--acknowledge-duration", float p.acknowledge,
   "--vote-duration", float p.vote, "--num-rounds"]

/-- What stands before the rounds. -/
def launchHead (c : BenchConfig) (p : BenchParams) (schedule : Schedule) : String :=
  c.monitorCommand ++ " &> /dev/null & cd " ++ c.remotePath c.workloadDir ++ " && " ++ c.workloadCommand
    ++ (" " ++ " ".intercalate (launchOptions p schedule) ++ " ")

/-- What stands behind the rounds. -/
def launchTail (c : BenchConfig) : String := " > " ++ c.stdLog ++ " 2>&1"

theorem launchLine_eq (c : BenchConfig) (p : BenchParams) (schedule : Schedule) (rounds : String) :
    launchLine c p schedule rounds = launchHead c p schedule ++ rounds ++ launchTail c := by
  have hcd : " &> /dev/null & cd " = " &> /dev/null &" ++ " " ++ "cd " := by decide
  have hand : " && " = " &&" ++ " " := by decide
  have hlog : " > " = " " ++ "> " := by decide
  simp only [launchLine, launchHead, launchTail, launchOptions, hcd, hand, hlog, String.intercalate_cons_cons,
    String.intercalate_singleton, String.append_assoc]

theorem braceless_launchOptions (p : BenchParams) (schedule : Schedule) :
    ∀ w ∈ launchOptions p schedule, Braceless w := by
  have hquote : Braceless "'" := by decide
  simp only [launchOptions, List.forall_mem_cons]
  have hstamp : Braceless ("'" ++ schedule.start.stamp ++ "'") :=
    (hquote.append (.of_figures (.stamp schedule.start))).append hquote
  exact ⟨by decide, hstamp, by decide, .of_figures (.word _), by decide, .of_figures (.float _), by decide,
    .of_figures (.float _), by decide, .of_figures (.float _), by decide, fun _ h => absurd h List.not_mem_nil⟩

/-! ## Where the mark is -/

/-- Between two texts that a text without a brace keeps apart, no mark comes about. -/
theorem contains_apart {between : String} (h : Braceless between) {first : Char} {rest : List Char}
    (hlist : between.toList = first :: rest) (hfirst : '\x7d' ≠ first) (pre post : String) :
    Text.contains (pre ++ between ++ post) hostArgMark
      = (Text.contains pre hostArgMark || Text.contains post hostArgMark) := by
  rw [Braceless, hlist] at h
  rw [Text.contains, String.toList_append, String.toList_append, hlist]
  exact Text.occurs_append_apart hfirst h _ _

/-- Before the rounds there is a mark exactly if a text of the configuration holds one there. -/
theorem contains_launchHead (c : BenchConfig) (p : BenchParams) (schedule : Schedule) :
    Text.contains (launchHead c p schedule) hostArgMark = false ↔ Unmarked c := by
  have hblank : Braceless " " := by decide
  have hoptions : Braceless (" " ++ " ".intercalate (launchOptions p schedule) ++ " ") :=
    (hblank.append (hblank.intercalate (braceless_launchOptions p schedule))).append hblank
  have hlist : (" " ++ " ".intercalate (launchOptions p schedule) ++ " ").toList
      = ' ' :: (" ".intercalate (launchOptions p schedule) ++ " ").toList := by
    rw [String.toList_append, String.toList_append, String.toList_append]
    rfl
  have hend := contains_apart hoptions hlist (by decide)
    (c.monitorCommand ++ " &> /dev/null & cd " ++ c.remotePath c.workloadDir ++ " && " ++ c.workloadCommand) ""
  rw [String.append_empty] at hend
  rw [launchHead, hend, contains_apart (by decide) rfl (by decide), contains_apart (by decide) rfl (by decide),
    show Text.contains "" hostArgMark = false from by decide]
  simp only [Unmarked, Bool.or_eq_false_iff, and_true, and_assoc]

/-- The line of a host is the one with its rounds exactly if no text before them holds a mark. -/
theorem replaceFirst_launchCommand_iff (c : BenchConfig) (p : BenchParams) (schedule : Schedule) (n : UInt64) :
    Text.replaceFirst (launchCommand c p schedule) hostArgMark (toString n) = launchLine c p schedule (toString n)
      ↔ Unmarked c := by
  have hmark : hostArgMark.toList = ['\x7b', '\x7d'] := by decide
  rw [← contains_launchHead c p schedule, launchCommand_eq, launchLine_eq, launchLine_eq, ← String.toList_inj,
    Text.replaceFirst, String.toList_ofList, Text.contains]
  simp only [String.toList_append, hmark, List.append_assoc, List.cons_append, List.nil_append]
  constructor
  · intro heq
    by_contra hmarked
    rw [Bool.not_eq_false] at hmarked
    rw [Text.replaceFirstChars_of_occurs (by decide) hmarked] at heq
    -- what stands before the rest of the line would end in the mark as well as in the rounds
    have hshort : Text.replaceFirstChars ['\x7b', '\x7d'] (toString n).toList (launchHead c p schedule).toList
        ++ ['\x7b', '\x7d'] = (launchHead c p schedule).toList ++ (toString n).toList := by
      rw [← List.append_left_inj (launchTail c).toList, List.append_assoc, List.append_assoc]
      exact heq
    have hends := congrArg List.getLast? hshort
    have hdigits : (toString n).toList = Nat.toDigits 10 n.toNat := Nat.toList_repr
    rw [hdigits, List.getLast?_append_of_ne_nil _ (List.cons_ne_nil _ _),
      List.getLast?_append_of_ne_nil _ Nat.toDigits_ne_nil] at hends
    have hdigit := Nat.isDigit_of_mem_toDigits (by decide) (by decide) (List.mem_of_getLast? hends.symm)
    exact absurd hdigit (by decide)
  · intro hnone
    rw [Text.replaceFirstChars_of_not_occurs (by decide) _ hnone, List.append_assoc]

end Bench

end CloudFleet
