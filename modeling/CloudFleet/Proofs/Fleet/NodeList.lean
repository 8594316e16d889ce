import CloudFleet.Fleet.NodeList
import CloudFleet.Proofs.World.ProgramLogic
import CloudFleet.World.Inert

/-!
# The list of nodes on file

What a list of nodes says is fixed by the addresses alone: a text that `Lists` them has one line for each, in their
order, and there is only one such text for all arrangements of the addresses (`Fleet.Lists.unique`). A call of
`Fleet.writeNodeList` has four ways to go (`Fleet.Updates`). In a world that keeps the file (`HoldsText`) a call that
returns leaves the list there, has written if that was news, and leaves nothing to do for the next call
(`Fleet.node_list_is_kept`).
-/

set_option autoImplicit false

namespace CloudFleet

variable {τ σ : Type} [Memory τ]

/-- What is put in order by texts is in the order of the texts. -/
theorem pairwise_mergeSort_by {α : Type} (text : α → String) (as : List α) :
    (as.mergeSort fun a b => decide (text a ≤ text b)).Pairwise fun a b => text a ≤ text b := by
  have htrans (a b c : α) (hab : decide (text a ≤ text b) = true) (hbc : decide (text b ≤ text c) = true) :
      decide (text a ≤ text c) = true :=
    decide_eq_true (String.le_trans (of_decide_eq_true hab) (of_decide_eq_true hbc))
  have htotal (a b : α) : (decide (text a ≤ text b) || decide (text b ≤ text a)) = true := by
    rw [Bool.or_eq_true, decide_eq_true_eq, decide_eq_true_eq]
    exact String.le_total _ _
  exact (List.pairwise_mergeSort htrans htotal _).imp of_decide_eq_true

/-! ## What a list says -/

namespace Fleet

/-- The addresses of the instances that run and have one, in the order of discovery. -/
def addresses (f : Fleet) : List String :=
  f.instances.filterMap fun i => if i.state = .running then i.address else none

/-- The text has a line for each of the addresses, and the lines are in the order of the addresses. -/
def Lists (addresses : List String) (port : UInt16) (text : String) : Prop :=
  ∃ rows : List String, rows.Perm addresses ∧ rows.Pairwise (· ≤ ·)
    ∧ text = String.join (rows.map fun address => s!"{address}:{port}\n")

theorem filterMap_running (f : Fleet) : f.running.filterMap Instance.address = f.addresses := by
  rw [running, inState, filter, addresses, List.filterMap_filter]
  simp only [beq_iff_eq]

theorem nodeAddresses_perm (f : Fleet) : f.nodeAddresses.Perm f.addresses :=
  f.filterMap_running ▸ List.mergeSort_perm _ _

theorem pairwise_nodeAddresses (f : Fleet) : f.nodeAddresses.Pairwise (· ≤ ·) := pairwise_mergeSort_by id _

/-- The text of the node list lists the addresses. -/
theorem lists_nodeListText (f : Fleet) (port : UInt16) :
    Lists f.addresses port (nodeListText f.nodeAddresses port) :=
  ⟨f.nodeAddresses, f.nodeAddresses_perm, f.pairwise_nodeAddresses, rfl⟩

/-- A list of some addresses is no empty text. -/
theorem nodeListText_ne_empty {addresses : List String} (hsome : addresses ≠ []) (port : UInt16) :
    nodeListText addresses port ≠ "" := by
  obtain ⟨address, others, rfl⟩ := List.exists_cons_of_ne_nil hsome
  intro hempty
  have hline : '\n' ∈ (s!"{address}:{port}\n").toList := by
    rw [String.toList_append]
    exact List.mem_append_right _ (by decide)
  have hbreak : '\n' ∈ (nodeListText (address :: others) port).toList := by
    rw [nodeListText, List.map_cons, String.join_cons, String.toList_append]
    exact List.mem_append_left _ hline
  rw [hempty] at hbreak
  cases hbreak

/-- However the addresses are arranged, there is one text that lists them. -/
theorem Lists.unique {as bs : List String} {port : UInt16} {text other : String} (h : Lists as port text)
    (h' : Lists bs port other) (hsame : as.Perm bs) : text = other := by
  obtain ⟨rows, hrows, hsorted, rfl⟩ := h
  obtain ⟨rows', hrows', hsorted', rfl⟩ := h'
  have hperm : rows.Perm rows' := (hrows.trans hsame).trans hrows'.symm
  have heq : rows = rows' := hperm.eq_of_pairwise (fun _ _ _ _ => String.le_antisymm) hsorted hsorted'
  rw [heq]

end Fleet

/-! ## A file in a world -/

/-- A world that keeps a file: `file` is what reading it is answered. A write that succeeds leaves the text there; to
read the file and to announce something leaves it as it is. -/
structure HoldsText (w : World σ) (path : Path) (file : σ → Except SystemError String) : Prop where
  told : ∀ world, (w.answer (.file (.readText path)) world).1 = file world
  read : ∀ world, file (w.answer (.file (.readText path)) world).2 = file world
  written : ∀ world text, (w.answer (.file (.write path text)) world).1 = .ok () →
    file (w.answer (.file (.write path text)) world).2 = .ok text
  announced : ∀ world event, file (w.answer (.announce event) world).2 = file world

/-- The text that a file reads as. One that does not exist counts as empty. -/
def textIn? : Except SystemError String → Option String
  | .ok text => some text
  | .error e => if e.missing then some "" else none

/-! ## One call -/

namespace Fleet

variable {w : World σ} {path : Path} {text : String} {hosts : Nat} {s : Run τ σ}

/-- What a call does once it is known which text is there. -/
def bringUpToDate (path : Path) (text : String) (hosts : Nat) (current : String) : Program τ FleetError Bool :=
  if current = text then pure false
  else do
    match ← Program.request (.file (.write path text)) with
    | .error e => .raise (.system e)
    | .ok () =>
      let _ ← Program.request (.announce (.nodeListWritten path hosts))
      pure true

theorem writeNodeList_eq (f : Fleet) (path : Path) (port : UInt16) :
    (f.writeNodeList path port : Program τ FleetError Bool)
      = Program.request (.file (.readText path)) >>= fun found => match found with
        | .ok current => bringUpToDate path (nodeListText f.nodeAddresses port) f.nodeAddresses.length current
        | .error e =>
          if e.missing then bringUpToDate path (nodeListText f.nodeAddresses port) f.nodeAddresses.length ""
          else .raise (.system e) := by
  refine congrArg (Program.request (.file (.readText path)) >>= ·) (funext fun found => ?_)
  cases found with
  | ok current => rfl
  | error e =>
    dsimp only
    split <;> rfl

/-- How a call that is to leave a text with so many lines in a file goes, by what it is answered. -/
inductive Updates (w : World σ) (path : Path) (text : String) (hosts : Nat) (s : Run τ σ) :
    Ending FleetError Bool → Run τ σ → Prop
  /-- It cannot be told what is there. -/
  | unreadable {e : SystemError} (found : s.reply w (.file (.readText path)) = .error e) (other : e.missing = false) :
    Updates w path text hosts s (.failed (.system e)) (s.ask w (.file (.readText path)))
  /-- The text is there. -/
  | upToDate (found : textIn? (s.reply w (.file (.readText path))) = some text) :
    Updates w path text hosts s (.returned false) (s.ask w (.file (.readText path)))
  /-- Another text is there, and cannot be replaced. -/
  | refused {old : String} {e : SystemError} (found : textIn? (s.reply w (.file (.readText path))) = some old)
    (news : old ≠ text)
    (answer : (s.ask w (.file (.readText path))).reply w (.file (.write path text)) = .error e) :
    Updates w path text hosts s (.failed (.system e))
      ((s.ask w (.file (.readText path))).ask w (.file (.write path text)))
  /-- Another text was there. -/
  | written {old : String} (found : textIn? (s.reply w (.file (.readText path))) = some old) (news : old ≠ text)
    (answer : (s.ask w (.file (.readText path))).reply w (.file (.write path text)) = .ok ()) :
    Updates w path text hosts s (.returned true)
      (((s.ask w (.file (.readText path))).ask w (.file (.write path text))).ask w
        (.announce (.nodeListWritten path hosts)))

theorem updates_bringUpToDate {old : String} (found : textIn? (s.reply w (.file (.readText path))) = some old) :
    Updates w path text hosts s ((bringUpToDate path text hosts old).run w (s.ask w (.file (.readText path)))).1
      ((bringUpToDate path text hosts old).run w (s.ask w (.file (.readText path)))).2 := by
  unfold bringUpToDate
  by_cases hsame : old = text
  · rw [if_pos hsame]
    exact .upToDate (hsame ▸ found)
  · rw [if_neg hsame, Program.run_andThen, Program.run_request]
    dsimp only
    cases hanswer : (s.ask w (.file (.readText path))).reply w (.file (.write path text)) with
    | ok _ => exact .written found hsame hanswer
    | error e => exact .refused found hsame hanswer

/-- However it is answered, a call goes one of these ways. -/
theorem updates_writeNodeList (f : Fleet) (path : Path) (port : UInt16) :
    Updates w path (nodeListText f.nodeAddresses port) f.nodeAddresses.length s
      ((f.writeNodeList path port).run w s).1 ((f.writeNodeList path port).run w s).2 := by
  rw [writeNodeList_eq, Program.run_andThen, Program.run_request]
  dsimp only
  cases hfound : s.reply w (.file (.readText path)) with
  | ok current => exact updates_bringUpToDate (congrArg textIn? hfound)
  | error e =>
    dsimp only
    cases hmissing : e.missing with
    | true => exact updates_bringUpToDate (by rw [hfound, textIn?, if_pos hmissing])
    | false => exact .unreadable hfound hmissing

namespace Updates

variable {file : σ → Except SystemError String} {ending : Ending FleetError Bool} {t : Run τ σ}

/-- After a call that returns, the file reads as the text. -/
theorem leaves_text {changed : Bool} (h : Updates w path text hosts s (.returned changed) t)
    (hw : HoldsText w path file) : textIn? (file t.world) = some text := by
  cases h with
  | upToDate found =>
    rw [Run.world_ask, hw.read, ← hw.told]
    exact found
  | written found news answer =>
    rw [Run.world_ask, hw.announced, Run.world_ask, hw.written _ text answer]
    rfl

/-- What a call that returns has asked: it has written exactly if another text was there. -/
theorem asked {changed : Bool} (h : Updates w path text hosts s (.returned changed) t) :
    (changed = true ↔ textIn? (s.reply w (.file (.readText path))) ≠ some text)
      ∧ t.history = s.history ++ .asked (.file (.readText path)) (s.reply w (.file (.readText path)))
        :: if changed then [.asked (.file (.write path text)) (.ok ()),
            .asked (.announce (.nodeListWritten path hosts)) ()] else [] := by
  cases h with
  | upToDate found => exact ⟨iff_of_false Bool.false_ne_true fun hne => hne found, rfl⟩
  | written found news answer =>
    refine ⟨iff_of_true rfl fun heq => news (Option.some.inj (found.symm.trans heq)), ?_⟩
    rw [Run.history_ask, Run.history_ask, Run.history_ask, answer, List.append_assoc, List.append_assoc]
    rfl

/-- Where the text is there, a call only reads. -/
theorem eq_of_upToDate (h : Updates w path text hosts s ending t)
    (found : textIn? (s.reply w (.file (.readText path))) = some text) :
    ending = .returned false ∧ t = s.ask w (.file (.readText path)) := by
  cases h with
  | unreadable error other =>
    rw [error, textIn?, other] at found
    cases found
  | upToDate _ => exact ⟨rfl, rfl⟩
  | refused old news _ => exact absurd (Option.some.inj (old.symm.trans found)) news
  | written old news _ => exact absurd (Option.some.inj (old.symm.trans found)) news

/-- Where it cannot be told what is there, a call only reads, and fails. -/
theorem eq_of_unreadable (h : Updates w path text hosts s ending t) {e : SystemError}
    (error : s.reply w (.file (.readText path)) = .error e) (other : e.missing = false) :
    ending = .failed (.system e) ∧ t = s.ask w (.file (.readText path)) := by
  have hnone : textIn? (s.reply w (.file (.readText path))) = none := by
    rw [error, textIn?, other]
    rfl
  cases h with
  | unreadable error' _ =>
    cases error.symm.trans error'
    exact ⟨rfl, rfl⟩
  | upToDate found => cases hnone.symm.trans found
  | refused found _ _ => cases hnone.symm.trans found
  | written found _ _ => cases hnone.symm.trans found

/-- Where it can be told what is there, a call returns unless it could not write. -/
theorem returned_or_refused (h : Updates w path text hosts s ending t)
    (hfound : textIn? (s.reply w (.file (.readText path))) ≠ none) :
    (∃ changed, ending = .returned changed)
      ∨ ∃ e, ending = .failed (.system e) ∧ t.history = s.history
        ++ [.asked (.file (.readText path)) (s.reply w (.file (.readText path))),
          .asked (.file (.write path text)) (.error e)] := by
  cases h with
  | unreadable error other =>
    rw [error, textIn?, other] at hfound
    exact absurd rfl hfound
  | upToDate _ => exact Or.inl ⟨_, rfl⟩
  | refused _ _ answer =>
    refine Or.inr ⟨_, rfl, ?_⟩
    rw [Run.history_ask, Run.history_ask, answer, List.append_assoc]
    rfl
  | written _ _ _ => exact Or.inl ⟨_, rfl⟩

end Updates

/-- **The node list is canonical, and written only if it is news.** In a world that keeps the file, a call that returns
leaves a file that reads as the text with one line `address:port` for each running instance that has an address, in
the order of the addresses, and there is no other such text for these addresses in any arrangement. The call returns
true exactly if the file did not read as that text before; exactly then it has written the file and announced that,
once each, and else it has only read. After that, a call for any fleet with the same addresses returns false and only
reads. A call that cannot tell what is there, for another reason than that nothing is there, fails with that reason and
has only read; any other call that fails could not write. -/
theorem node_list_is_kept {file : σ → Except SystemError String} (hw : HoldsText w path file) (f : Fleet)
    (port : UInt16) (s : Run τ σ) :
    ∃ text, Lists f.addresses port text
      ∧ (∀ (as : List String) (other : String), as.Perm f.addresses → Lists as port other → other = text)
      ∧ ∃ ending t new, (f.writeNodeList path port).run w s = (ending, t) ∧ t.history = s.history ++ new
        ∧ (∀ changed, ending = .returned changed →
          textIn? (file t.world) = some text
            ∧ (changed = true ↔ textIn? (file s.world) ≠ some text)
            ∧ new = .asked (.file (.readText path)) (file s.world)
              :: (if changed then [.asked (.file (.write path text)) (.ok ()),
                  .asked (.announce (.nodeListWritten path f.addresses.length)) ()] else [])
            ∧ ∀ g : Fleet, g.addresses.Perm f.addresses →
              ∃ u, (g.writeNodeList path port).run w t = (.returned false, u) ∧ u.own = t.own
                ∧ u.history = t.history ++ [.asked (.file (.readText path)) (file t.world)]
                ∧ file u.world = file t.world)
        ∧ (∀ e, file s.world = .error e → e.missing = false →
          ending = .failed (.system e) ∧ new = [.asked (.file (.readText path)) (.error e)])
        ∧ (textIn? (file s.world) ≠ none → (∃ changed, ending = .returned changed)
          ∨ ∃ e, ending = .failed (.system e) ∧ new = [.asked (.file (.readText path)) (file s.world),
            .asked (.file (.write path text)) (.error e)]) := by
  have htold (r : Run τ σ) : r.reply w (.file (.readText path)) = file r.world := hw.told r.world
  have hlists := f.lists_nodeListText port
  obtain ⟨new, hh, -⟩ := (f.writeNodeList path port).run_history w s
  have hupdates := updates_writeNodeList (w := w) (s := s) f path port
  rw [f.nodeAddresses_perm.length_eq] at hupdates
  cases hrun : (f.writeNodeList path port).run w s with
  | mk ending t =>
    rw [hrun] at hh hupdates
    refine ⟨_, hlists, fun as other hsame h => h.unique hlists hsame, ending, t, new, rfl, hh, ?returned, ?unreadable,
      ?readable⟩
    case returned =>
      intro changed hreturned
      subst hreturned
      obtain ⟨hiff, hasked⟩ := hupdates.asked
      rw [htold] at hiff hasked
      have hleft := hupdates.leaves_text hw
      refine ⟨hleft, hiff, List.append_cancel_left (hh.symm.trans hasked), fun g hsame => ?_⟩
      have hagain := updates_writeNodeList (w := w) (s := t) g path port
      rw [(g.lists_nodeListText port).unique hlists hsame] at hagain
      obtain ⟨hfalse, hread⟩ := hagain.eq_of_upToDate (by rw [htold]; exact hleft)
      refine ⟨t.ask w (.file (.readText path)), Prod.ext hfalse hread, rfl, ?_, hw.read _⟩
      rw [Run.history_ask, htold]
    case unreadable =>
      intro e herror hother
      obtain ⟨hfailed, hread⟩ := hupdates.eq_of_unreadable (by rw [htold]; exact herror) hother
      refine ⟨hfailed, List.append_cancel_left (hh.symm.trans ?_)⟩
      rw [hread, Run.history_ask, htold, herror]
    case readable =>
      intro hfound
      rcases hupdates.returned_or_refused (by rw [htold]; exact hfound) with hreturned | ⟨e, hfailed, hrefused⟩
      · exact Or.inl hreturned
      · rw [htold] at hrefused
        exact Or.inr ⟨e, hfailed, List.append_cancel_left (hh.symm.trans hrefused)⟩

/-- A world of one file and nothing else. -/
def oneFile (path : Path) : World (Except SystemError String) where
  answer r file := match r with
    | .file (.readText other) =>
      if other = path then (file, file) else (Request.unanswered (.file (.readText other)), file)
    | .file (.write other text) =>
      if other = path then (.ok (), .ok text) else (Request.unanswered (.file (.write other text)), file)
    | r => (r.unanswered, file)

theorem holdsText_oneFile (path : Path) : HoldsText (oneFile path) path id where
  told file := by simp only [oneFile, if_pos, id]
  read file := by simp only [oneFile, if_pos, id]
  written file text _ := by simp only [oneFile, if_pos, id]
  announced file event := rfl

/-- Two instances with one address, one with an address that begins with it, and two that are not listed. -/
def fewNodes : Fleet where
  instances := [⟨"i-1", ⟨"eu-west-3"⟩, some "10.0.0.10", .running, true, none⟩,
    ⟨"i-2", ⟨"eu-west-3"⟩, some "10.0.0.1", .running, false, none⟩,
    ⟨"i-3", ⟨"us-east-1"⟩, some "10.0.0.0", .stopped, false, none⟩,
    ⟨"i-4", ⟨"us-east-1"⟩, none, .running, false, none⟩,
    ⟨"i-5", ⟨"us-east-1"⟩, some "10.0.0.1", .running, true, none⟩]

/-- Where there is no file. -/
def noFile : Run Fleet (Except SystemError String) := ⟨fewNodes, .error ⟨true, "No such file or directory"⟩, []⟩

/-- The list is written where there was no file, and not again when the instances are known in another order. -/
theorem node_list_is_kept_few :
    HoldsText (oneFile "nodes.txt") "nodes.txt" id
      ∧ ∃ t u, (fewNodes.writeNodeList "nodes.txt" 8333).run (oneFile "nodes.txt") noFile = (.returned true, t)
        ∧ textIn? t.world = some "10.0.0.1:8333\n10.0.0.1:8333\n10.0.0.10:8333\n"
        ∧ ({ instances := fewNodes.instances.reverse : Fleet }.writeNodeList "nodes.txt" 8333).run (oneFile "nodes.txt") t
          = (.returned false, u) := by
  have hholds := holdsText_oneFile "nodes.txt"
  obtain ⟨text, -, hunique, ending, t, new, hrun, hh, hreturned, -, hreadable⟩ :=
    node_list_is_kept hholds fewNodes 8333 noFile
  have htext : "10.0.0.1:8333\n10.0.0.1:8333\n10.0.0.10:8333\n" = text :=
    hunique ["10.0.0.1", "10.0.0.1", "10.0.0.10"] _ (by decide) ⟨_, .refl _, by decide, by decide⟩
  rcases hreadable (by decide) with ⟨changed, rfl⟩ | ⟨e, rfl, -⟩
  · obtain ⟨hleft, hiff, -, hagain⟩ := hreturned changed rfl
    have htrue : changed = true := hiff.mpr (by rw [← htext]; decide)
    obtain ⟨u, hnext, -⟩ := hagain { instances := fewNodes.instances.reverse } (by decide)
    exact ⟨hholds, t, u, htrue ▸ hrun, hleft.trans (congrArg some htext.symm), hnext⟩
  · have hupdates := updates_writeNodeList (w := oneFile "nodes.txt") (s := noFile) fewNodes "nodes.txt" 8333
    rw [hrun] at hupdates
    cases hupdates with
    | unreadable error other =>
      cases error
      cases other
    | refused _ _ answer => cases answer

end Fleet

end CloudFleet
