import CloudFleet.Proofs.Bench.Course
import CloudFleet.Proofs.Text.Digest
import CloudFleet.World.Inert
import Mathlib.Data.List.Nodup

/-!
# What a sync of a file does

A sync reads the local file, asks every host for the digest of its own, and copies the file to the hosts that show
another digest or none, in order (`Syncs`). Where hosts keep what they have and show it, a sync that returned leaves its
file on every host, so the next one copies nothing (`syncFile_settles`).
-/

set_option autoImplicit false

namespace CloudFleet.Bench

open Session (EndedWell ExecReply insisted insisted_ends sent_answers)

variable {σ : Type}

/-! ## What is exchanged -/

/-- A host was asked for the digest of a file. -/
def check (remote host : String) (reply : ExecReply) : Exchange :=
  ⟨.shell (.exec host (digestCommand remote) false), reply⟩

/-- A file was copied to a host. -/
def copy (localPath : Path) (remote host : String) (answer : Except TransportError Unit) : Exchange :=
  ⟨.shell (.copyTo host localPath remote), answer⟩

/-- The first word that a host printed. -/
def shown? : ExecReply → Option String
  | .after _ (.ok out) => Text.firstWord? out.stdout
  | _ => none

/-- The hosts that show another digest or none, in order. -/
def outdated (digest : String) (hosts : List String) (checks : List ExecReply) : List String :=
  ((hosts.zip checks).filter fun x => shown? x.2 != some digest).map Prod.fst

/-- What a sync of a file with these contents exchanges, and what it returns. -/
structure Syncs (c : BenchConfig) (localPath : Path) (name : String) (bytes : ByteArray) (hosts : List String)
    (exchanged : List Exchange) (checks : List ExecReply) (copies : List (Except TransportError Unit))
    (updated? : Option (List String)) : Prop where
  checked : checks.length = hosts.length
  exchanged : exchanged = ⟨.file (.readBytes localPath), .ok bytes⟩
    :: (hosts.zip checks).map (fun x => check (c.remotePath name) x.1 x.2)
    ++ ((outdated (Digest.digest bytes) hosts checks).zip copies).map fun x =>
      copy localPath (c.remotePath name) x.1 x.2
  /-- Every host whose check shows something else gets one copy, if all checks succeeded. -/
  copied : (∀ e ∈ checks, EndedWell e) → copies.length = (outdated (Digest.digest bytes) hosts checks).length
  withheld : ¬(∀ e ∈ checks, EndedWell e) → copies = []
  returned : ∀ updated, updated? = some updated ↔ (∀ e ∈ checks, EndedWell e) ∧ (∀ answer ∈ copies, answer = .ok ())
    ∧ updated = outdated (Digest.digest bytes) hosts checks

section Selection

variable {bound : Session} {result : RunResult} {checks : List ExecReply}

/-- The hosts with another digest are selected by what each of them printed itself. -/
theorem filter_printedDigest (hnodup : bound.hosts.Nodup) (hlength : checks.length = bound.hosts.length)
    (hresult : ∀ host ∈ bound.hosts, ∃ out delay, out.exitCode = some 0
      ∧ (host, .after delay (.ok out)) ∈ bound.hosts.zip checks
      ∧ result.outcome? host = some (Session.succeeded bound host out)) (digest : String) :
    (bound.hosts.filter fun host => printedDigest result host != some digest) = outdated digest bound.hosts checks := by
  have hfst : (bound.hosts.zip checks).map Prod.fst = bound.hosts := List.map_fst_zip (Nat.le_of_eq hlength.symm)
  have hpoint : ∀ x ∈ bound.hosts.zip checks,
      (printedDigest result x.1 != some digest) = (shown? x.2 != some digest) := by
    rintro ⟨host, reply⟩ hx
    obtain ⟨out, delay, -, hmem, houtcome⟩ := hresult host (List.of_mem_zip hx).1
    -- a host that is bound once was asked once
    have hsame := List.inj_on_of_nodup_map (hfst.symm ▸ hnodup) hx hmem rfl
    cases hsame
    rw [printedDigest, houtcome]
    rfl
  calc bound.hosts.filter (fun host => printedDigest result host != some digest)
      = ((bound.hosts.zip checks).map Prod.fst).filter (fun host => printedDigest result host != some digest) := by
        rw [hfst]
    _ = ((bound.hosts.zip checks).filter fun x => printedDigest result x.1 != some digest).map Prod.fst :=
        List.filter_map
    _ = outdated digest bound.hosts checks := by rw [outdated, List.filter_congr hpoint]

end Selection

/-- A sync ends with its checks if one of them did not succeed. -/
theorem syncs_unchecked {c : BenchConfig} {localPath : Path} {name : String} {bytes : ByteArray} {hosts : List String}
    {checks : List ExecReply} (hlength : checks.length = hosts.length) (hchecks : ¬∀ e ∈ checks, EndedWell e) :
    Syncs c localPath name bytes hosts (⟨.file (.readBytes localPath), .ok bytes⟩
      :: (hosts.zip checks).map fun x => check (c.remotePath name) x.1 x.2) checks [] none :=
  ⟨hlength, by simp, fun h => absurd h hchecks, fun _ => rfl, fun _ => ⟨nofun, fun h => absurd h.1 hchecks⟩⟩

/-- After the checks the file is copied to the hosts that are outdated. -/
theorem syncs_checked (c : BenchConfig) (localPath : Path) (name : String) {bytes : ByteArray} {hosts : List String}
    {checks : List ExecReply} {copies : List (Except TransportError Unit)} {x : Option (List String)}
    (hlength : checks.length = hosts.length) (hchecks : ∀ e ∈ checks, EndedWell e)
    (hcopies : copies.length = (outdated (Digest.digest bytes) hosts checks).length)
    (hx : ∀ updated, x = some updated
      ↔ (∀ answer ∈ copies, answer = .ok ()) ∧ updated = outdated (Digest.digest bytes) hosts checks) :
    Syncs c localPath name bytes hosts (⟨.file (.readBytes localPath), .ok bytes⟩
        :: (hosts.zip checks).map (fun x => check (c.remotePath name) x.1 x.2)
        ++ ((outdated (Digest.digest bytes) hosts checks).zip copies).map
          fun x => copy localPath (c.remotePath name) x.1 x.2)
      checks copies x :=
  ⟨hlength, rfl, fun _ => hcopies, fun h => absurd hchecks h, fun updated => by rw [hx, and_iff_right hchecks]⟩

/-- What comes of the course of a sync. -/
theorem syncs_of_synced {bound : Session} {c : BenchConfig} {localPath : Path} {name : String} {bytes : ByteArray}
    {rest : List Exchange} {x : Option (List String)} (hnodup : bound.hosts.Nodup)
    (hs : synced bound c localPath name (⟨.file (.readBytes localPath), .ok bytes⟩ :: rest) x) :
    ∃ checks copies,
      Syncs c localPath name bytes bound.hosts (⟨.file (.readBytes localPath), .ok bytes⟩ :: rest) checks copies x := by
  rcases file_bind_iff.mp hs with ⟨e, heq, -⟩ | ⟨bytes', rest', heq, hchecks⟩
  · cases heq
  cases heq
  rcases Course.bind_iff.mp hchecks with ⟨hrefused, rfl⟩ | ⟨result, before, after, rfl, hinsisted, hcopy⟩
  · obtain ⟨checks, hlength, rfl, hended, -⟩ := insisted_ends hrefused
    exact ⟨checks, [], syncs_unchecked hlength (hended.mp rfl)⟩
  · obtain ⟨checks, hlength, rfl, hended, hresult⟩ := insisted_ends hinsisted
    have hall : ∀ e ∈ checks, EndedWell e := by simpa using hended
    rw [filter_printedDigest hnodup hlength (hresult result rfl)] at hcopy
    split at hcopy
    · -- no host is outdated
      rename_i hempty
      obtain ⟨rfl, rfl⟩ := hcopy
      have hcopies : ([] : List (Except TransportError Unit)).length
          = (outdated (Digest.digest bytes) bound.hosts checks).length := by
        rw [List.isEmpty_iff.mp hempty]
        rfl
      have h := syncs_checked c localPath name hlength hall hcopies fun updated =>
        ⟨fun h => ⟨nofun, (Option.some.inj h).symm⟩, fun h => congrArg some h.2.symm⟩
      rw [List.zip_nil_right, List.map_nil] at h
      exact ⟨checks, [], h⟩
    · rcases Course.bind_iff.mp hcopy with ⟨hfailed, rfl⟩ | ⟨_, last, _, rfl, hsent, ⟨rfl, rfl⟩⟩
      · obtain ⟨copies, hcopies, rfl, hok⟩ := sent_answers hfailed
        refine ⟨checks, copies, syncs_checked c localPath name hlength hall hcopies fun updated => ?_⟩
        exact ⟨nofun, fun h => nomatch hok.mpr h.1⟩
      · obtain ⟨copies, hcopies, rfl, hok⟩ := sent_answers hsent
        refine ⟨checks, copies, ?_⟩
        rw [List.append_nil]
        refine syncs_checked c localPath name hlength hall hcopies fun updated => ?_
        exact ⟨fun h => ⟨hok.mp rfl, (Option.some.inj h).symm⟩, fun h => congrArg some h.2.symm⟩

/-- A sync of a readable file. -/
theorem run_syncFile (w : World σ) (c : BenchConfig) (localPath : Path) (name : String) {s : Run Session σ}
    {bytes : ByteArray} (hfile : s.reply w (.file (.readBytes localPath)) = .ok bytes) (hhosts : s.own.hosts ≠ [])
    (hnodup : s.own.hosts.Nodup) :
    ∃ ending t new checks copies, (syncFile c localPath name).run w s = (ending, t) ∧ t.history = s.history ++ new
      ∧ Syncs c localPath name bytes s.own.hosts (effects new) checks copies ending.value?
      ∧ ∀ updated, ending = .returned updated → t.own.hosts = s.own.hosts := by
  have hfollows := follows_synced c hhosts localPath name (w := w) (s := s) ⟨rfl, rfl⟩
  obtain ⟨more, hmore⟩ : ∃ more, ((syncFile c localPath name).run w s).2.history
      = s.history ++ .asked (.file (.readBytes localPath)) (s.reply w (.file (.readBytes localPath))) :: more :=
    Program.history_ask_first w _ _ s
  unfold Follows at hfollows
  cases hrun : (syncFile c localPath name).run w s with
  | mk ending t =>
    rw [hrun] at hfollows hmore
    obtain ⟨new, hh, hcourse, hbound⟩ := hfollows
    rw [Option.bind_fun_some] at hcourse
    -- the course begins with the file as it was read
    have hnew : effects new = ⟨.file (.readBytes localPath), .ok bytes⟩ :: effects more := by
      rw [hmore, hfile] at hh
      rw [← List.append_cancel_left hh]
      exact effects_append [_] more
    rw [hnew] at hcourse
    obtain ⟨checks, copies, hsyncs⟩ := syncs_of_synced hnodup hcourse
    refine ⟨ending, t, new, checks, copies, rfl, hh, hnew ▸ hsyncs, fun updated hreturned => ?_⟩
    subst hreturned
    exact (hbound updated rfl).1

/-! ## What hosts hold -/

/-- What a sync asks for. -/
inductive SyncRequest (localPath : Path) (remote : String) : Request → Prop
  | read : SyncRequest localPath remote (.file (.readBytes localPath))
  | check (host : String) : SyncRequest localPath remote (.shell (.exec host (digestCommand remote) false))
  | copy (host : String) : SyncRequest localPath remote (.shell (.copyTo host localPath remote))
  | wait (length : Duration) : SyncRequest localPath remote (.sleep length)
  | log (line : LogLine) : SyncRequest localPath remote (.log line)

theorem asks_syncFile (c : BenchConfig) (localPath : Path) (name : String) :
    (syncFile c localPath name).Asks (SyncRequest localPath (c.remotePath name)) := by
  have hread : (fileDigest localPath : BenchProgram String).Asks (SyncRequest localPath (c.remotePath name)) := by
    refine .bind (.mapError (.bind (.request .read) fun answer => ?_) _) fun _ => .pure _
    cases answer with
    | ok bytes => exact .pure _
    | error e => exact .raise _
  have hcheck : (Session.run (digestCommand (c.remotePath name)) {}).Asks (SyncRequest localPath (c.remotePath name)) :=
    Session.asks_plain .wait .log rfl rfl rfl .check
  refine hread.bind fun digest => ((hcheck.mapError _).mapError _).bind fun result => .bind .memory fun own => ?_
  dsimp only
  split
  · exact .bind (.request (.log _)) fun _ => .pure _
  · refine .bind (.request (.log _)) fun _ => ?_
    exact (((Session.asks_narrowed _ (Session.asks_copyTo .copy)).mapError _).mapError _).bind fun _ => .pure _

/-- A world whose hosts keep a file: `held` is the digest of what a host has. A check that succeeds shows it, a copy
that succeeds leaves the copied file there, and nothing else in a sync changes it. -/
structure Keeping (w : World σ) (localPath : Path) (remote digest : String) (held : σ → String → Option String) :
    Prop where
  shown : ∀ world host, EndedWell (w.answer (.shell (.exec host (digestCommand remote) false)) world).1 →
    shown? (w.answer (.shell (.exec host (digestCommand remote) false)) world).1 = held world host
  received : ∀ world host, (w.answer (.shell (.copyTo host localPath remote)) world).1 = .ok () →
    held (w.answer (.shell (.copyTo host localPath remote)) world).2 host = some digest
  kept : ∀ world host r, SyncRequest localPath remote r → r ≠ .shell (.copyTo host localPath remote) →
    held (w.answer r world).2 host = held world host

/-- What is found in a list that grew by one item is found before it, or is the item. -/
theorem append_singleton_eq {α : Type} {xs before after : List α} {x y : α} (h : xs ++ [y] = before ++ x :: after) :
    (∃ after', xs = before ++ x :: after') ∨ xs = before ∧ y = x := by
  rcases List.eq_nil_or_concat after with rfl | ⟨after', last, rfl⟩
  · exact Or.inr (List.append_inj' h rfl |>.imp_right List.head_eq_of_cons_eq)
  · rw [List.concat_eq_append, ← List.cons_append, ← List.append_assoc] at h
    exact Or.inl ⟨after', (List.append_inj' h rfl).1⟩

/-- What hosts hold, and showed, after what was exchanged since `s`. -/
structure Tracked (localPath : Path) (remote digest : String) (held : σ → String → Option String)
    (s u : Run Session σ) (exchanged : List Exchange) : Prop where
  untouched : ∀ host, (∀ answer, copy localPath remote host answer ∉ exchanged) → held u.world host = held s.world host
  touched : ∀ host answer, copy localPath remote host answer ∈ exchanged →
    (∀ answer, copy localPath remote host answer ∈ exchanged → answer = .ok ()) → held u.world host = some digest
  shown : ∀ before after host reply, exchanged = before ++ check remote host reply :: after →
    (∀ answer, copy localPath remote host answer ∉ before) → EndedWell reply → shown? reply = held s.world host

namespace Tracked

variable {w : World σ} {localPath : Path} {remote digest : String} {held : σ → String → Option String}
  {s u : Run Session σ} {exchanged : List Exchange}

theorem refl (s : Run Session σ) : Tracked localPath remote digest held s s [] :=
  ⟨fun _ _ => rfl, nofun, fun before after host reply h => by simp at h⟩

/-- A request that reaches neither hosts nor files. -/
theorem tell (h : Tracked localPath remote digest held s u exchanged) (hw : Keeping w localPath remote digest held)
    {r : Request} (hr : SyncRequest localPath remote r) (hreach : r.reaches = false) :
    Tracked localPath remote digest held s (u.ask w r) exchanged := by
  have hkept : ∀ host, held (u.ask w r).world host = held u.world host := fun host =>
    hw.kept u.world host r hr (by rintro rfl; cases hreach)
  exact ⟨fun host hnone => (hkept host).trans (h.untouched host hnone),
    fun host answer hm hall => (hkept host).trans (h.touched host answer hm hall), h.shown⟩

/-- One host more gets a copy, or does not. -/
theorem ask_copy (h : Tracked localPath remote digest held s u exchanged) (hw : Keeping w localPath remote digest held)
    (host : String) :
    Tracked localPath remote digest held s (u.ask w (.shell (.copyTo host localPath remote)))
      (exchanged ++ [copy localPath remote host (u.reply w (.shell (.copyTo host localPath remote)))]) := by
  have hkept : ∀ other, other ≠ host →
      held (u.ask w (.shell (.copyTo host localPath remote))).world other = held u.world other := fun other hne =>
    hw.kept u.world other _ (.copy host) fun heq => by cases heq; exact hne rfl
  refine ⟨fun other hnone => ?_, fun other answer hm hall => ?_, fun before after other reply heq hnone hended => ?_⟩
  · have hne : other ≠ host := by
      rintro rfl
      exact hnone _ (List.mem_append_right _ List.mem_cons_self)
    rw [hkept other hne]
    exact h.untouched other fun answer hm => hnone answer (List.mem_append_left _ hm)
  · by_cases hsame : other = host
    · subst hsame
      exact hw.received u.world other (hall _ (List.mem_append_right _ List.mem_cons_self))
    · rw [hkept other hsame]
      rcases List.mem_append.mp hm with hm | hm
      · exact h.touched other answer hm fun answer hm => hall answer (List.mem_append_left _ hm)
      · cases List.mem_singleton.mp hm
        exact absurd rfl hsame
  · rcases append_singleton_eq heq with ⟨after', hexchanged⟩ | ⟨-, hlast⟩
    · exact h.shown before after' other reply hexchanged hnone hended
    · cases hlast

/-- Any other exchange more. -/
theorem ask_other (h : Tracked localPath remote digest held s u exchanged)
    (hw : Keeping w localPath remote digest held) {r : Request} (hr : SyncRequest localPath remote r)
    (hne : ∀ host, r ≠ .shell (.copyTo host localPath remote)) :
    Tracked localPath remote digest held s (u.ask w r) (exchanged ++ [⟨r, u.reply w r⟩]) := by
  have hkept : ∀ host, held (u.ask w r).world host = held u.world host := fun host =>
    hw.kept u.world host r hr (hne host)
  have hearlier : ∀ host answer, copy localPath remote host answer ∈ exchanged ++ [⟨r, u.reply w r⟩] →
      copy localPath remote host answer ∈ exchanged := by
    intro host answer hm
    rcases List.mem_append.mp hm with hm | hm
    · exact hm
    · exact absurd (congrArg Sigma.fst (List.mem_singleton.mp hm)).symm (hne host)
  refine ⟨fun host hnone => ?_, fun host answer hm hall => ?_, fun before after host reply heq hnone hended => ?_⟩
  · rw [hkept host]
    exact h.untouched host fun answer hm => hnone answer (List.mem_append_left _ hm)
  · rw [hkept host]
    exact h.touched host answer (hearlier host answer hm) fun answer hm => hall answer (List.mem_append_left _ hm)
  · rcases append_singleton_eq heq with ⟨after', hexchanged⟩ | ⟨rfl, hlast⟩
    · exact h.shown before after' host reply hexchanged hnone hended
    · -- the check is what was just asked, and the host holds what it held at first
      cases hlast
      rw [← h.untouched host hnone]
      exact hw.shown u.world host hended

/-- The step lemma: whatever a sync asks for, hosts hold and showed what is tracked. -/
theorem ask (h : Tracked localPath remote digest held s u exchanged) (hw : Keeping w localPath remote digest held)
    {r : Request} (hr : SyncRequest localPath remote r) :
    Tracked localPath remote digest held s (u.ask w r)
      (exchanged ++ effects [(.asked r (u.reply w r) : Happening Session)]) := by
  cases hr with
  | read => exact h.ask_other hw .read nofun
  | check host => exact h.ask_other hw (.check host) nofun
  | copy host => exact h.ask_copy hw host
  | wait length =>
    rw [effects_told rfl, List.append_nil]
    exact h.tell hw (.wait length) rfl
  | log line =>
    rw [effects_told rfl, List.append_nil]
    exact h.tell hw (.log line) rfl

end Tracked

/-- The run lemma: from any state on, a sync tracks what hosts hold and showed. -/
theorem tracked_syncFile {w : World σ} {c : BenchConfig} {localPath : Path} {name digest : String}
    {held : σ → String → Option String} (hw : Keeping w localPath (c.remotePath name) digest held)
    {s t : Run Session σ} {ending : Ending Report (List String)} {new : List (Happening Session)}
    (hrun : (syncFile c localPath name).run w s = (ending, t)) (hh : t.history = s.history ++ new) :
    Tracked localPath (c.remotePath name) digest held s t (effects new) := by
  have hkeeps : Program.Keeps w (fun u => ∃ later, u.history = s.history ++ later
      ∧ Tracked localPath (c.remotePath name) digest held s u (effects later)) (syncFile c localPath name) := by
    refine (asks_syncFile c localPath name).keeps ?_ ?_
    · rintro r u hr ⟨later, hlater, htracked⟩
      refine ⟨later ++ [.asked r (u.reply w r)], by rw [Run.history_ask, hlater, List.append_assoc], ?_⟩
      rw [effects_append]
      exact htracked.ask hw hr
    · rintro change u ⟨later, hlater, htracked⟩
      refine ⟨later ++ [.changed change], by rw [Run.history_change, hlater, List.append_assoc], ?_⟩
      rw [effects_append, show effects [(.changed change : Happening Session)] = [] from rfl, List.append_nil]
      exact ⟨htracked.untouched, htracked.touched, htracked.shown⟩
  obtain ⟨later, hlater, htracked⟩ := hkeeps s ⟨[], by simp, .refl s⟩
  rw [hrun] at hlater htracked
  rwa [List.append_cancel_left (hh.symm.trans hlater)]

/-! ## The next sync -/

namespace Syncs

variable {c : BenchConfig} {localPath : Path} {name digest : String} {bytes : ByteArray} {hosts updated : List String}
  {exchanged : List Exchange} {checks : List ExecReply} {copies : List (Except TransportError Unit)}
  {updated? : Option (List String)} {held : σ → String → Option String} {s u : Run Session σ}

/-- The copies that are exchanged are those of the outdated hosts. -/
theorem mem_copies (h : Syncs c localPath name bytes hosts exchanged checks copies updated?) {host : String}
    {answer : Except TransportError Unit} : copy localPath (c.remotePath name) host answer ∈ exchanged
      ↔ (host, answer) ∈ (outdated (Digest.digest bytes) hosts checks).zip copies := by
  rw [h.exchanged, List.cons_append, List.mem_cons, List.mem_append]
  constructor
  · rintro (hread | hcheck | hcopy)
    · cases hread
    · obtain ⟨x, -, hx⟩ := List.mem_map.mp hcheck
      cases hx
    · obtain ⟨x, hx, heq⟩ := List.mem_map.mp hcopy
      cases heq
      exact hx
  · exact fun hm => Or.inr (Or.inr (List.mem_map.mpr ⟨_, hm, rfl⟩))

/-- A check that succeeds shows what the host held before the sync. -/
theorem shown (h : Syncs c localPath name bytes hosts exchanged checks copies updated?)
    (htracked : Tracked localPath (c.remotePath name) digest held s u exchanged) {host : String} {reply : ExecReply}
    (hm : (host, reply) ∈ hosts.zip checks) (hended : EndedWell reply) : shown? reply = held s.world host := by
  obtain ⟨early, late, hsplit⟩ := List.append_of_mem hm
  have hexchanged := h.exchanged
  rw [hsplit, List.map_append, List.map_cons] at hexchanged
  simp only [List.cons_append, List.append_assoc] at hexchanged
  refine htracked.shown (_ :: early.map fun x => check (c.remotePath name) x.1 x.2) _ host reply
    (hexchanged.trans (List.cons_append ..).symm) (fun answer hcopy => ?_) hended
  rcases List.mem_cons.mp hcopy with hread | hcheck
  · cases hread
  · obtain ⟨x, -, hx⟩ := List.mem_map.mp hcheck
    cases hx

/-- After a sync that returned, every host holds the file. -/
theorem held_of_returned
    (h : Syncs c localPath name bytes hosts exchanged checks copies (some updated))
    (htracked : Tracked localPath (c.remotePath name) (Digest.digest bytes) held s u exchanged) {host : String}
    (hm : host ∈ hosts) : held u.world host = some (Digest.digest bytes) := by
  obtain ⟨hchecks, hcopies, -⟩ := (h.returned updated).mp rfl
  obtain ⟨reply, hreply⟩ := Session.exists_mem_zip h.checked hm
  by_cases hout : host ∈ outdated (Digest.digest bytes) hosts checks
  · obtain ⟨answer, hanswer⟩ := Session.exists_mem_zip (h.copied hchecks) hout
    exact htracked.touched host answer (h.mem_copies.mpr hanswer) fun other hother =>
      hcopies other (List.of_mem_zip (h.mem_copies.mp hother)).2
  · rw [htracked.untouched host fun answer hcopy => hout (List.of_mem_zip (h.mem_copies.mp hcopy)).1,
      ← h.shown htracked hreply (hchecks reply (List.of_mem_zip hreply).2)]
    by_contra hother
    exact hout (List.mem_map.mpr ⟨_, List.mem_filter.mpr ⟨hreply, bne_iff_ne.mpr hother⟩, rfl⟩)

/-- A sync of a file that every host holds copies nothing. -/
theorem copies_nil (h : Syncs c localPath name bytes hosts exchanged checks copies updated?)
    (htracked : Tracked localPath (c.remotePath name) digest held s u exchanged)
    (hheld : ∀ host ∈ hosts, held s.world host = some (Digest.digest bytes)) :
    copies = [] ∧ ((∀ e ∈ checks, EndedWell e) → outdated (Digest.digest bytes) hosts checks = []) := by
  have hnone (hchecks : ∀ e ∈ checks, EndedWell e) : outdated (Digest.digest bytes) hosts checks = [] := by
    rw [outdated, List.map_eq_nil_iff, List.filter_eq_nil_iff]
    rintro ⟨host, reply⟩ hm
    have hpair := List.of_mem_zip hm
    rw [h.shown htracked hm (hchecks reply hpair.2), hheld host hpair.1]
    simp
  refine ⟨?_, hnone⟩
  by_cases hchecks : ∀ e ∈ checks, EndedWell e
  · rw [← List.length_eq_zero_iff, h.copied hchecks, hnone hchecks, List.length_nil]
  · exact h.withheld hchecks

end Syncs

/-- **A sync touches the outdated hosts and then rests.** A sync of a readable file on distinct hosts asks each of them
for its digest; if all checks succeed it copies the file to the hosts that show another digest or none, once each and in
order, and to no other; it returns these hosts if all checks and copies succeeded, and only then. In a world whose
hosts keep the file, another sync of the same file after that copies nothing, and returns no host if all its checks
succeed. -/
theorem syncFile_settles (w : World σ) (c : BenchConfig) (localPath : Path) (name : String) (s : Run Session σ)
    (bytes : ByteArray) (hfile : s.reply w (.file (.readBytes localPath)) = .ok bytes) (hhosts : s.own.hosts ≠ [])
    (hnodup : s.own.hosts.Nodup) :
    ∃ ending t new checks copies, (syncFile c localPath name).run w s = (ending, t)
      ∧ t.history = s.history ++ new
      ∧ Syncs c localPath name bytes s.own.hosts (effects new) checks copies ending.value?
      ∧ ∀ held, Keeping w localPath (c.remotePath name) (Digest.digest bytes) held →
        ∀ updated, ending = .returned updated → t.reply w (.file (.readBytes localPath)) = .ok bytes →
          ∃ again u later rechecks, (syncFile c localPath name).run w t = (again, u) ∧ u.history = t.history ++ later
            ∧ Syncs c localPath name bytes s.own.hosts (effects later) rechecks [] again.value?
            ∧ ((∀ e ∈ rechecks, EndedWell e) → again = .returned []) := by
  obtain ⟨ending, t, new, checks, copies, hrun, hh, hsyncs, hback⟩ :=
    run_syncFile w c localPath name hfile hhosts hnodup
  refine ⟨ending, t, new, checks, copies, hrun, hh, hsyncs, fun held hw updated hreturned hsame => ?_⟩
  have hown := hback updated hreturned
  subst hreturned
  have hheld : ∀ host ∈ s.own.hosts, held t.world host = some (Digest.digest bytes) := fun host hm =>
    hsyncs.held_of_returned (tracked_syncFile hw hrun hh) hm
  obtain ⟨again, u, later, rechecks, recopies, hrun', hh', hsyncs', -⟩ :=
    run_syncFile w c localPath name hsame (hown ▸ hhosts) (hown ▸ hnodup)
  rw [hown] at hsyncs'
  obtain ⟨rfl, hnone⟩ := hsyncs'.copies_nil (tracked_syncFile hw hrun' hh') hheld
  refine ⟨again, u, later, rechecks, hrun', hh', hsyncs', fun hchecks => Ending.value?_eq_some_iff.mp ?_⟩
  exact (hsyncs'.returned []).mpr ⟨hchecks, nofun, (hnone hchecks).symm⟩

/-- A world whose hosts keep a file, and show its digest with its name if they have one. -/
def shelf (bytes : ByteArray) : World (String → Option String) where
  answer r kept := match r with
    | .file (.readBytes _) => (.ok bytes, kept)
    | .shell (.exec host _ _) =>
      (.after .zero (.ok ⟨some 0, ((kept host).map (· ++ " " ++ "app.zip")).getD "", ""⟩), kept)
    | .shell (.copyTo host _ _) =>
      (.ok (), fun other => if other = host then some (Digest.digest bytes) else kept other)
    | r => (r.unanswered, kept)

theorem keeping_shelf (bytes : ByteArray) (localPath : Path) (remote : String) :
    Keeping (shelf bytes) localPath remote (Digest.digest bytes)
      fun kept host => Text.firstWord? (((kept host).map (· ++ " " ++ "app.zip")).getD "") where
  shown _ _ _ := rfl
  received kept host _ := by
    simp only [shelf, if_pos, Option.map_some, Option.getD_some]
    exact Digest.firstWord?_digest_append bytes "app.zip"
  kept kept host r hr hne := by
    cases hr with
    | copy other =>
      have hother : host ≠ other := fun heq => hne (by rw [heq])
      simp only [shelf, if_neg hother]
    | _ => rfl

/-- A file. -/
def zipped : ByteArray := .mk #[80, 75, 3, 4]

/-- A session on two hosts that do not have the file. -/
def bare : Run Session (String → Option String) := ⟨{ hosts := ["a", "b"] }, fun _ => none, []⟩

/-- Both hosts get the file, and the next sync copies nothing. -/
theorem syncFile_settles_bare :
    ((syncFile {} "aws/app.zip" "app.zip").run (shelf zipped) bare).1 = .returned ["a", "b"]
      ∧ ∃ again u later rechecks, (syncFile {} "aws/app.zip" "app.zip").run (shelf zipped)
          ((syncFile {} "aws/app.zip" "app.zip").run (shelf zipped) bare).2 = (again, u)
        ∧ u.history = ((syncFile {} "aws/app.zip" "app.zip").run (shelf zipped) bare).2.history ++ later
        ∧ Syncs {} "aws/app.zip" "app.zip" zipped ["a", "b"] (effects later) rechecks [] again.value?
        ∧ ((∀ e ∈ rechecks, EndedWell e) → again = .returned []) := by
  obtain ⟨ending, t, new, checks, copies, hrun, -, -, hnext⟩ :=
    syncFile_settles (shelf zipped) {} "aws/app.zip" "app.zip" bare zipped rfl (by decide) (by decide)
  have hreturned : ((syncFile {} "aws/app.zip" "app.zip").run (shelf zipped) bare).1 = .returned ["a", "b"] := rfl
  rw [hrun] at hreturned ⊢
  exact ⟨hreturned, hnext _ (keeping_shelf zipped _ _) ["a", "b"] hreturned rfl⟩

end CloudFleet.Bench
