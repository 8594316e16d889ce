import CloudFleet.Proofs.Bench.Verdict
import CloudFleet.Proofs.Text.Characters

/-!
# The table of runs

`tabled path w` is a world like `w` in which the file at a path holds what it held before and what is appended to it.
There a call that collects results and returns adds the line of the judged run to the table and leaves what stands
before. The line is written as it is: it is a single one exactly if no line break stands in the name of a host or within
what a host printed, and a new table has as many lines as runs exactly if that holds of all of them
(`Bench.table_grows_by_lines_iff`).
-/

set_option autoImplicit false

namespace CloudFleet

variable {σ τ ε α : Type}

/-! ## A file that is appended to -/

/-- A file in the surroundings of a world. -/
structure Table (σ : Type) where
  content : String
  rest : σ

namespace Bench

open Session (ExecReply)

/-- What was appended to a file. -/
def written (path : Path) (h : List Exchange) : String :=
  String.join ((appends h).filterMap fun x => if x.1 = path then some x.2 else none)

theorem written_append (path : Path) (h k : List Exchange) :
    written path (h ++ k) = written path h ++ written path k := by
  rw [written, appends_append, List.filterMap_append, String.join_append]
  rfl

/-- What is no exchange with files appends nothing. -/
theorem written_effects_asked [Memory τ] (path : Path) (r : Request) (reply : r.Reply) :
    written path (effects [(.asked r reply : Happening τ)]) = written path [⟨r, reply⟩] := by
  have hlocal : ∀ e : Exchange, e.1.reaches = false → appended? e = none := by
    intro e h
    unfold appended?
    split
    · cases h
    · rfl
  rw [written, appends, filterMap_effects_asked hlocal]
  unfold written appends
  rw [List.filterMap_cons]
  cases appended? ⟨r, reply⟩ <;> rfl

/-- A world like another one, in which a file holds what it held and what is appended to it. -/
def tabled (path : Path) (w : World σ) : World (Table σ) where
  answer r d :=
    let (reply, rest) := w.answer r d.rest
    (reply, ⟨d.content ++ written path [⟨r, reply⟩], rest⟩)

/-- Whatever is run, nothing but what is appended to the file changes it. -/
theorem content_run [Memory τ] (path : Path) (w : World σ) (p : Program τ ε α) (s : Run τ (Table σ)) :
    ∃ new, (p.run (tabled path w) s).2.history = s.history ++ new
      ∧ (p.run (tabled path w) s).2.world.content = s.world.content ++ written path (effects new) := by
  refine Program.grows_of_steps (I := fun new (t : Run τ (Table σ)) =>
    t.world.content = s.world.content ++ written path (effects new)) ?_ ?_ p String.append_empty.symm
  · intro r new t hcontent
    rw [effects_append, written_append, written_effects_asked, ← String.append_assoc, ← hcontent]
    rfl
  · intro c new t hcontent
    rw [effects_append, written_append, ← String.append_assoc, ← hcontent]
    exact String.append_empty.symm

/-! ## Lines -/

/-- Whether a text is a line with its end: its last character is a line break, and there is no other one. -/
def IsLine (s : String) : Prop := s.toList.count '\n' = 1 ∧ s.toList.getLast? = some '\n'

instance (s : String) : Decidable (IsLine s) := inferInstanceAs (Decidable (_ ∧ _))

theorem count_line (s : String) : (s ++ "\n").toList.count '\n' = s.toList.count '\n' + 1 := by
  rw [String.toList_append, List.count_append]
  rfl

theorem isLine_iff (s : String) : IsLine (s ++ "\n") ↔ '\n' ∉ s.toList := by
  have hlast : (s ++ "\n").toList.getLast? = some '\n' := by
    rw [String.toList_append]
    exact List.getLast?_append_of_ne_nil _ (by decide)
  rw [IsLine, count_line, ← List.count_eq_zero]
  exact ⟨fun h => Nat.succ.inj h.1, fun h => ⟨congrArg Nat.succ h, hlast⟩⟩

theorem length_le_count_lines (lines : List String) :
    lines.length ≤ (String.join (lines.map (· ++ "\n"))).toList.count '\n' := by
  induction lines with
  | nil => exact Nat.zero_le _
  | cons line lines ih =>
    rw [List.map_cons, String.join_cons, String.toList_append, List.count_append, count_line, List.length_cons]
    omega

/-- There are as many line breaks as lines exactly if none stands within a line. -/
theorem count_lines_eq_iff (lines : List String) :
    (String.join (lines.map (· ++ "\n"))).toList.count '\n' = lines.length ↔ ∀ line ∈ lines, IsLine (line ++ "\n") := by
  induction lines with
  | nil => simp
  | cons line lines ih =>
    have hle := length_le_count_lines lines
    have hsplit : line.toList.count '\n' + 1 + (String.join (lines.map (· ++ "\n"))).toList.count '\n'
        = lines.length + 1 ↔ line.toList.count '\n' = 0
          ∧ (String.join (lines.map (· ++ "\n"))).toList.count '\n' = lines.length := by omega
    rw [List.map_cons, String.join_cons, String.toList_append, List.count_append, count_line, List.length_cons, hsplit,
      ih, List.count_eq_zero, List.forall_mem_cons, isLine_iff]

/-! ## The line of a run -/

/-- Of what a line is made of, only the names and the results of the hosts can hold a line break. -/
theorem newline_mem_csvLine_iff (r : RunRecord) :
    '\n' ∈ r.csvLine.toList ↔ ∃ entry ∈ r.results, '\n' ∈ entry.1.toList ∨ '\n' ∈ entry.2.text.toList := by
  have hentry (entry : String × HostResult) :
      '\n' ∈ (s!"{entry.1},{entry.2.text}").toList ↔ '\n' ∈ entry.1.toList ∨ '\n' ∈ entry.2.text.toList := by
    have htext (s : String) : toString s = s := rfl
    rw [htext, htext, htext, String.toList_append, String.toList_append, List.mem_append, List.mem_append]
    simp
  have hresults : '\n' ∈ (RunRecord.resultsField r.results).toList
      ↔ ∃ entry ∈ r.results, '\n' ∈ entry.1.toList ∨ '\n' ∈ entry.2.text.toList := by
    rw [RunRecord.resultsField, Text.mem_intercalate_iff (by decide)]
    simp only [List.mem_map, exists_exists_and_eq_and, hentry]
  have hfield : '\n' ∈ ("\"" ++ RunRecord.resultsField r.results ++ "\"").toList
      ↔ ∃ entry ∈ r.results, '\n' ∈ entry.1.toList ∨ '\n' ∈ entry.2.text.toList := by
    rw [String.toList_append, String.toList_append, List.mem_append, List.mem_append, hresults]
    simp
  have hverdict : '\n' ∉ ((r.verdict.map Verdict.text).getD "").toList := by
    cases r.verdict with
    | none => decide
    | some verdict => cases verdict <;> decide
  have hnumber {text : String} (h : Figures text) : '\n' ∉ text.toList := h.not_mem (by decide)
  rw [RunRecord.csvLine, Text.mem_intercalate_iff (by decide)]
  simp only [List.cons_append, List.nil_append, List.exists_mem_cons_iff, hfield, hverdict, hnumber (.word _),
    hnumber (.float _), hnumber (.stamp _), false_or, List.not_mem_nil, false_and, exists_false, or_false]

/-- Of what a host printed, nothing is written but what is no result. -/
theorem newline_mem_hostResult_iff (r : RunRecord) (o : Outcome) :
    '\n' ∈ (hostResult r o).text.toList ↔ '\n' ∈ (Text.trim o.stdout).toList := by
  have hmissing (found : String) : '\n' ∈ (HostResult.missing found).text.toList ↔ '\n' ∈ found.toList := by
    show '\n' ∈ ("MISSING(" ++ found ++ ")").toList ↔ _
    rw [String.toList_append, String.toList_append, List.mem_append, List.mem_append]
    simp
  unfold hostResult
  dsimp only
  split
  · rename_i hok
    have htrim : Text.trim o.stdout = "OK" := eq_of_beq (Bool.and_eq_true _ _ ▸ hok).2
    rw [htrim]
    split <;> exact iff_of_false (by decide) (by decide)
  · split
    · rename_i hfailed
      have htrim : Text.trim o.stdout = "FAILED" := eq_of_beq (Bool.and_eq_true _ _ ▸ hfailed).2
      rw [htrim]
      exact iff_of_false (by decide) (by decide)
    · exact hmissing _

/-- What is left of the output of a host is what it printed in the read. -/
theorem trim_stdout_of_reports {own : Session} {host : String} {reply : ExecReply} {o : Outcome}
    (h : Session.Reports own none host reply o) : Text.trim o.stdout = printout reply := by
  cases h with
  | ran intime => rfl
  | broke intime => rfl
  | late allowed => cases allowed
  | hung allowed => cases allowed

theorem exists_mem_iff_of_forall₂ {β γ : Type} {R : β → γ → Prop} {p : β → Prop} {q : γ → Prop}
    (hmatch : ∀ b c, R b c → (p b ↔ q c)) {bs : List β} {cs : List γ} (h : List.Forall₂ R bs cs) :
    (∃ b ∈ bs, p b) ↔ ∃ c ∈ cs, q c := by
  induction h with
  | nil => simp
  | cons hbc _ ih => simp only [List.exists_mem_cons_iff, hmatch _ _ hbc, ih]

/-- The line of a judged run has a line break exactly if the name of a host has one or a host printed one. -/
theorem newline_mem_judge_iff (r : RunRecord) {own : Session} {hosts : List String} {replies : List ExecReply}
    {outcomes : List Outcome}
    (h : List.Forall₂ (fun call o => Session.Reports own none call.1 call.2 o) (hosts.zip replies) outcomes) :
    '\n' ∈ (judge r outcomes).csvLine.toList
      ↔ ∃ x ∈ hosts.zip replies, '\n' ∈ x.1.toList ∨ '\n' ∈ (printout x.2).toList := by
  have hresults : (judge r outcomes).results = outcomes.map fun o => (o.host, hostResult r o) := rfl
  rw [newline_mem_csvLine_iff, hresults]
  simp only [List.mem_map, exists_exists_and_eq_and, newline_mem_hostResult_iff]
  refine (exists_mem_iff_of_forall₂ (fun x o hreport => ?_) h).symm
  rw [hreport.host_eq.1, trim_stdout_of_reports hreport]

/-! ## The table after a call, and after many -/

section Calls

variable (w : World σ) (c : BenchConfig)

/-- The reads of a call append nothing. -/
theorem written_reads (path : Path) (hosts : List String) (replies : List ExecReply) :
    written path (reads c hosts replies) = "" := by
  have hnone : appends (reads c hosts replies) = [] := by
    rw [appends, reads, List.filterMap_map, List.filterMap_eq_nil_iff]
    exact fun _ _ => rfl
  rw [written, hnone]
  rfl

/-- A call that returns adds the line of the judged run to the table and leaves what stands before. That is a single
line exactly if no line break stands in the name of a host or within what a host printed. -/
theorem collectResults_adds_line {r judged : RunRecord} {verdict : Verdict} {s t : Run Session (Table σ)}
    (h : (collectResults c r : Program Session ε (Collected Verdict)).run (tabled c.resultsCsv w) s
      = (.returned ⟨judged, .ok verdict⟩, t)) :
    t.world.content = s.world.content ++ (judged.csvLine ++ "\n")
      ∧ ∃ replies later, replies.length = s.own.hosts.length
        ∧ effects t.history = effects s.history ++ reads c s.own.hosts replies ++ later
        ∧ (∀ x ∈ later, x.1.remote = false)
        ∧ (IsLine (judged.csvLine ++ "\n")
          ↔ ∀ x ∈ s.own.hosts.zip replies, '\n' ∉ x.1.toList ∧ '\n' ∉ (printout x.2).toList) := by
  have hhosts : s.own.hosts ≠ [] := by
    intro hnone
    obtain ⟨u, hfailed, -⟩ := run_collectResults_unbound (ε := ε) (tabled c.resultsCsv w) c r s hnone
    cases h.symm.trans hfailed
  obtain ⟨replies, ending, u, later, hrun, hlength, -, heffects, hlocal, hstalled, hended⟩ :=
    run_collectResults (ε := ε) (tabled c.resultsCsv w) c r s hhosts
  obtain ⟨rfl, rfl⟩ := Prod.mk.inj (h.symm.trans hrun)
  have hnever : .never ∉ replies := fun hm => by cases hstalled hm
  obtain ⟨outcomes, answer, hreturned, hreports, _, -, hanswer⟩ := hended hnever
  cases hreturned
  obtain ⟨-, happends⟩ | ⟨e, herror, -⟩ := hanswer
  · obtain ⟨new, hh, hcontent⟩ := content_run c.resultsCsv w
      (collectResults c r : Program Session ε (Collected Verdict)) s
    rw [h] at hh hcontent
    refine ⟨?_, replies, later, hlength, heffects, hlocal, ?_⟩
    · have hnew : effects new = reads c s.own.hosts replies ++ later := by
        have hgrown : effects s.history ++ effects new
            = effects s.history ++ (reads c s.own.hosts replies ++ later) := by
          rw [← effects_append, ← hh, heffects, List.append_assoc]
        exact List.append_cancel_left hgrown
      rw [hcontent, hnew, written_append, written_reads, written, happends]
      simp
    · rw [isLine_iff, newline_mem_judge_iff r hreports]
      simp only [not_exists, not_and, not_or]
  · cases herror

/-- Calls that return, one after the other, with the runs that they judged. What happens between them leaves the table
as it is. -/
inductive Collects : Run Session (Table σ) → List RunRecord → Run Session (Table σ) → Prop
  | none (s : Run Session (Table σ)) : Collects s [] s
  | more {s t u v : Run Session (Table σ)} {r judged : RunRecord} {verdict : Verdict} {later : List RunRecord}
    (call : (collectResults c r : BenchProgram (Collected Verdict)).run (tabled c.resultsCsv w) s
      = (.returned ⟨judged, .ok verdict⟩, t))
    (between : u.world.content = t.world.content) (rest : Collects u later v) : Collects s (judged :: later) v

/-- The table holds the lines of all runs, behind what it held before. -/
theorem content_of_collects {s t : Run Session (Table σ)} {judged : List RunRecord} (h : Collects w c s judged t) :
    t.world.content = s.world.content ++ String.join ((judged.map RunRecord.csvLine).map (· ++ "\n")) := by
  induction h with
  | none s => exact String.append_empty.symm
  | more call between rest ih =>
    rw [ih, between, (collectResults_adds_line w c call).1, List.map_cons, List.map_cons, String.join_cons,
      String.append_assoc]

/-- **One line for each run, if no line break is printed.** A call that returns adds the line of the run that it judged,
and leaves what stands before. The line is a single one exactly if no line break stands in the name of a host or within
what a host printed. So a table that was new has as many line breaks as calls returned exactly if that holds of all of
them. -/
theorem table_grows_by_lines_iff :
    (∀ (r judged : RunRecord) (verdict : Verdict) (s t : Run Session (Table σ)),
      (collectResults c r : BenchProgram (Collected Verdict)).run (tabled c.resultsCsv w) s
        = (.returned ⟨judged, .ok verdict⟩, t) →
      t.world.content = s.world.content ++ (judged.csvLine ++ "\n")
        ∧ ∃ replies later, replies.length = s.own.hosts.length
          ∧ effects t.history = effects s.history ++ reads c s.own.hosts replies ++ later
          ∧ (∀ x ∈ later, x.1.remote = false)
          ∧ (IsLine (judged.csvLine ++ "\n")
            ↔ ∀ x ∈ s.own.hosts.zip replies, '\n' ∉ x.1.toList ∧ '\n' ∉ (printout x.2).toList))
      ∧ ∀ (s t : Run Session (Table σ)) (judged : List RunRecord), Collects w c s judged t → s.world.content = "" →
        (t.world.content.toList.count '\n' = judged.length ↔ ∀ r ∈ judged, IsLine (r.csvLine ++ "\n")) := by
  refine ⟨fun r judged verdict s t h => collectResults_adds_line w c h, fun s t judged h hnew => ?_⟩
  have hcount := count_lines_eq_iff (judged.map RunRecord.csvLine)
  rw [List.length_map, List.forall_mem_map] at hcount
  rw [content_of_collects w c h, hnew, String.empty_append, hcount]

end Calls

/-- The four hosts where a session is bound to them and the table is new. -/
def fourStart : Run Session (Table Unit) := ⟨fourBound.own, ⟨"", ()⟩, []⟩

/-- The record of the four hosts, judged. -/
def fourJudged : RunRecord := { fourRecord with
  results := [("a", .ok), ("b", .failed), ("c", .missing ""), ("d", .evil)], verdict := some .failed }

/-- None of the four hosts prints a line break within its result, and the table has one line. -/
theorem table_grows_by_lines_iff_four :
    ∃ t, (collectResults {} fourRecord : BenchProgram (Collected Verdict)).run
        (tabled ({} : BenchConfig).resultsCsv fourHosts) fourStart = (.returned ⟨fourJudged, .ok .failed⟩, t)
      ∧ t.world.content = "" ++ (fourJudged.csvLine ++ "\n") ∧ IsLine (fourJudged.csvLine ++ "\n")
      ∧ t.world.content.toList.count '\n' = 1 := by
  obtain ⟨hadds, hcounts⟩ := table_grows_by_lines_iff fourHosts {}
  have hreturned : ((collectResults {} fourRecord : BenchProgram (Collected Verdict)).run
      (tabled ({} : BenchConfig).resultsCsv fourHosts) fourStart).1 = .returned ⟨fourJudged, .ok .failed⟩ := rfl
  have hrun := Prod.ext hreturned rfl
  have hline : IsLine (fourJudged.csvLine ++ "\n") := by
    rw [isLine_iff, newline_mem_csvLine_iff]
    decide
  refine ⟨_, hrun, (hadds _ _ _ _ _ hrun).1, hline, ?_⟩
  exact (hcounts _ _ _ (.more hrun rfl (.none _)) rfl).mpr (List.forall_mem_singleton.mpr hline)

/-- The world of a host that prints two lines. -/
def twoLines : World Unit where
  answer r state := (match r with
    | .shell (.exec "a" _ _) => .after .zero (.ok ⟨some 0, "x\ny", ""⟩)
    | .file (.createDirs _) => .ok ()
    | .file (.append ..) => .ok ()
    | r => r.unanswered, state)

/-- A session that is bound to the host, where the table is new. -/
def twoLinesStart : Run Session (Table Unit) := ⟨{ hosts := ["a"] }, ⟨"", ()⟩, []⟩

/-- One call that returns leaves more than one line in a new table if a host prints two. -/
theorem printed_line_break_breaks_the_table :
    ∃ judged t, (collectResults {} fourRecord : BenchProgram (Collected Verdict)).run
        (tabled ({} : BenchConfig).resultsCsv twoLines) twoLinesStart = (.returned ⟨judged, .ok .failed⟩, t)
      ∧ t.world.content = judged.csvLine ++ "\n" ∧ ¬IsLine (judged.csvLine ++ "\n")
      ∧ t.world.content.toList.count '\n' ≠ 1 := by
  let judged : RunRecord := { fourRecord with results := [("a", .missing "x\ny")], verdict := some .failed }
  have hreturned : ((collectResults {} fourRecord : BenchProgram (Collected Verdict)).run
      (tabled ({} : BenchConfig).resultsCsv twoLines) twoLinesStart).1 = .returned ⟨judged, .ok .failed⟩ := rfl
  have hrun := Prod.ext hreturned rfl
  have hcontent := (collectResults_adds_line twoLines {} hrun).1.trans String.empty_append
  have hbreak : '\n' ∈ judged.csvLine.toList := by
    rw [newline_mem_csvLine_iff]
    exact ⟨_, List.mem_cons_self, Or.inr (by decide)⟩
  refine ⟨judged, _, hrun, hcontent, fun hline => (isLine_iff _).mp hline hbreak, ?_⟩
  have hcount : judged.csvLine.toList.count '\n' ≠ 0 := fun h => List.count_eq_zero.mp h hbreak
  rw [hcontent, count_line]
  exact fun h => hcount (Nat.succ.inj h)

end Bench

end CloudFleet
