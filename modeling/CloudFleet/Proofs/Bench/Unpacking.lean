import CloudFleet.Proofs.Bench.Depot
import CloudFleet.Proofs.Bench.Phases
import CloudFleet.Proofs.Bench.Syncing
import CloudFleet.Proofs.Fleet.NodeList
import CloudFleet.Proofs.Fleet.Target
import CloudFleet.Proofs.Remote.Chains

/-!
# Hosts unpack what they received

An update of the payload that returned first brought all archives up to date, then unpacked. What it says of the hosts
is what it did: the hosts that received an archive are those that it calls updated, and those that it calls unpacked
ran the unpack command, once each and after every copy (`Renews`, `payload_is_unpacked_where_received`). For a shell
the unpack command is a chain: each archive is unpacked only after the workload was removed and the archives before it
were unpacked (`chain?_unpackCommand`).
-/

set_option autoImplicit false

namespace CloudFleet.Bench

open Course (Only)
open Program (Ensures Keeps)
open Session (At EndedWell ExecReply insisted_ends)

variable {σ : Type} {fc : FleetConfig} {c : BenchConfig} {f : Fleet} {bound : Session}

/-! ## Hosts in order -/

theorem mem_sorted {host : String} {texts : List String} : host ∈ sorted texts ↔ host ∈ texts := by
  rw [sorted, List.mem_mergeSort, List.mem_eraseDups]

/-- Texts in order are each there once. -/
theorem pairwise_sorted (texts : List String) : (sorted texts).Pairwise (· < ·) := by
  have hle : (sorted texts).Pairwise (· ≤ ·) := pairwise_mergeSort_by id _
  have hne : (sorted texts).Pairwise (· ≠ ·) := (List.mergeSort_perm _ _).nodup_iff.mpr (nodup_eraseDups texts)
  exact (hle.and hne).imp fun h => String.not_le.mp fun hge => h.2 (String.le_antisymm h.1 hge)

/-! ## What is exchanged -/

/-- An archive arrived on a host. -/
def arrival (c : BenchConfig) (archive host : String) : Exchange :=
  copy (Path.join c.payloadDir archive) (c.remotePath archive) host (.ok ())

/-- The archives were unpacked on a host, with what came of it. -/
def unpacking (c : BenchConfig) (host : String) (reply : ExecReply) : Exchange :=
  ⟨.shell (.exec host (unpackCommand c) false), reply⟩

/-- The host that was told to unpack, if one was. -/
def unpacks? (c : BenchConfig) (e : Exchange) : Option String :=
  match e.1 with
  | .shell (.exec host command _) => if command = unpackCommand c then some host else none
  | _ => none

/-- A call on the local machine. -/
def Here (e : Exchange) : Prop := ∃ call reply, e = ⟨.file call, reply⟩

/-- What is exchanged before anything is unpacked: calls on the local machine, and for the archives checks that
succeeded and copies that arrived. -/
inductive Delivering (c : BenchConfig) (hosts : List String) : Exchange → Prop
  | here (call : FileCall) (reply : (Request.file call).Reply) : Delivering c hosts ⟨.file call, reply⟩
  | checked {archive host : String} {reply : ExecReply} (ha : archive ∈ c.archives) (hh : host ∈ hosts)
    (hended : EndedWell reply) : Delivering c hosts (check (c.remotePath archive) host reply)
  | arrived {archive host : String} (ha : archive ∈ c.archives) (hh : host ∈ hosts) :
    Delivering c hosts (arrival c archive host)

/-- Nothing is unpacked while the archives are delivered. -/
theorem Delivering.unpacks?_eq_none {hosts : List String} {e : Exchange} (h : Delivering c hosts e) :
    unpacks? c e = none := by
  cases h with
  | here call reply => rfl
  | checked ha hh hended => exact if_neg (digestCommand_ne_unpackCommand c _)
  | arrived ha hh => rfl

/-- What an update exchanges that returned this: the archives are delivered, and then unpacked where the update says, on
each host once and with success. -/
structure Renews (c : BenchConfig) (hosts : List String) (always : Bool) (exchanged delivery : List Exchange)
    (replies : List ExecReply) (update : PayloadUpdate) : Prop where
  order : exchanged = delivery ++ (update.unpacked.zip replies).map fun x => unpacking c x.1 x.2
  delivering : ∀ e ∈ delivery, Delivering c hosts e
  answered : replies.length = update.unpacked.length
  succeeded : ∀ reply ∈ replies, EndedWell reply
  /-- The hosts that received an archive are called updated, and no others are. -/
  updated : ∀ host, host ∈ update.updated ↔ ∃ archive ∈ c.archives, arrival c archive host ∈ exchanged
  sorted : update.updated.Pairwise (· < ·)
  unpacked : update.unpacked = if always then hosts else hosts.filter (· ∈ update.updated)

/-- The hosts that ran the unpack command are those that the update calls unpacked, in order. -/
theorem Renews.unpacks {hosts : List String} {always : Bool} {exchanged delivery : List Exchange}
    {replies : List ExecReply} {update : PayloadUpdate}
    (h : Renews c hosts always exchanged delivery replies update) :
    exchanged.filterMap (unpacks? c) = update.unpacked := by
  have hnone : delivery.filterMap (unpacks? c) = [] :=
    List.filterMap_eq_nil_iff.mpr fun e he => (h.delivering e he).unpacks?_eq_none
  have hone : (update.unpacked.zip replies).filterMap (unpacks? c ∘ fun x => unpacking c x.1 x.2)
      = (update.unpacked.zip replies).map Prod.fst :=
    List.filterMap_eq_map_iff_forall_eq_some.mpr fun x _ => if_pos rfl
  rw [h.order, List.filterMap_append, hnone, List.nil_append, List.filterMap_map, hone]
  exact List.map_fst_zip (Nat.le_of_eq h.answered.symm)

theorem only_here_listed {path : Path} {text : String} : Only Here (listed path text) :=
  only_listed (fun reply => ⟨_, reply, rfl⟩) fun reply => ⟨_, reply, rfl⟩

theorem only_here_packed : Only Here (packed c) := only_packed fun _ reply => ⟨_, reply, rfl⟩

section Course

variable {h : List Exchange}

/-- A sync that is through delivered its file to the hosts that it gives. -/
theorem delivering_of_synced {archive : String} {outdated : List String} (hnodup : bound.hosts.Nodup)
    (ha : archive ∈ c.archives) (hs : synced bound c (Path.join c.payloadDir archive) archive h (some outdated)) :
    (∀ e ∈ h, Delivering c bound.hosts e) ∧ (∀ host ∈ outdated, arrival c archive host ∈ h)
      ∧ ∀ host localPath remote answer, copy localPath remote host answer ∈ h → host ∈ outdated := by
  rcases file_bind_iff.mp hs with ⟨_, -, hnone⟩ | ⟨bytes, rest, rfl, -⟩
  · cases hnone
  obtain ⟨checks, copies, hsyncs⟩ := syncs_of_synced hnodup hs
  obtain ⟨hchecks, hcopies, houtdated⟩ := (hsyncs.returned outdated).mp rfl
  subst houtdated
  have hhost {host : String} (hm : host ∈ Bench.outdated (Digest.digest bytes) bound.hosts checks) :
      host ∈ bound.hosts := by
    obtain ⟨x, hx, rfl⟩ := List.mem_map.mp hm
    exact (List.of_mem_zip (List.mem_of_mem_filter hx)).1
  have hkinds : ∀ e ∈ (⟨.file (.readBytes (Path.join c.payloadDir archive)), .ok bytes⟩ :: rest : List Exchange),
      Delivering c bound.hosts e ∧ ∀ host localPath remote answer, e = copy localPath remote host answer →
        host ∈ Bench.outdated (Digest.digest bytes) bound.hosts checks := by
    rw [hsyncs.exchanged]
    intro e he
    rw [List.cons_append, List.mem_cons, List.mem_append] at he
    rcases he with rfl | hcheck | hcopy
    · exact ⟨.here _ _, nofun⟩
    · obtain ⟨x, hx, rfl⟩ := List.mem_map.mp hcheck
      have hpair := List.of_mem_zip hx
      exact ⟨.checked ha hpair.1 (hchecks _ hpair.2), nofun⟩
    · obtain ⟨x, hx, rfl⟩ := List.mem_map.mp hcopy
      obtain ⟨hm, hanswer⟩ := List.of_mem_zip hx
      refine ⟨?_, fun host localPath remote answer heq => by cases heq; exact hm⟩
      rw [hcopies _ hanswer]
      exact .arrived ha (hhost hm)
  refine ⟨fun e he => (hkinds e he).1, fun host hm => ?_,
    fun host localPath remote answer hm => (hkinds _ hm).2 host localPath remote answer rfl⟩
  obtain ⟨answer, hzip⟩ := Session.exists_mem_zip (hsyncs.copied hchecks) hm
  rw [hcopies answer (List.of_mem_zip hzip).2] at hzip
  exact hsyncs.mem_copies.mpr hzip

/-- Syncs of archives that are all through delivered to the hosts that they give. -/
theorem delivering_of_syncedAll {archives updated : List String} (hnodup : bound.hosts.Nodup)
    (hsub : archives ⊆ c.archives) (hs : syncedAll bound c archives h (some updated)) :
    (∀ e ∈ h, Delivering c bound.hosts e)
      ∧ ∀ host, host ∈ updated ↔ ∃ archive ∈ c.archives, arrival c archive host ∈ h := by
  induction archives generalizing h updated with
  | nil =>
    obtain ⟨rfl, hupdated⟩ := hs
    cases hupdated
    simp
  | cons archive archives ih =>
    obtain ⟨outdated, early, rest, rfl, hfirst, hrest⟩ := Course.bind_some_iff.mp hs
    obtain ⟨others, late, last, rfl, hlater, rfl, hupdated⟩ := Course.bind_some_iff.mp hrest
    cases hupdated
    obtain ⟨ha, hsub⟩ := List.cons_subset.mp hsub
    obtain ⟨hearly, harrived, honly⟩ := delivering_of_synced hnodup ha hfirst
    obtain ⟨hlate, hothers⟩ := ih hsub hlater
    rw [List.append_nil]
    refine ⟨fun e he => (List.mem_append.mp he).elim (hearly e) (hlate e), fun host => ?_⟩
    rw [List.mem_append, hothers]
    constructor
    · rintro (hm | ⟨other, hother, hm⟩)
      · exact ⟨archive, ha, List.mem_append_left _ (harrived host hm)⟩
      · exact ⟨other, hother, List.mem_append_right _ hm⟩
    · rintro ⟨other, hother, hm⟩
      rcases List.mem_append.mp hm with hm | hm
      · exact Or.inl (honly host _ _ _ hm)
      · exact Or.inr ⟨other, hother, hm⟩

/-- Where the archives are unpacked, every host that is meant unpacked them, once. -/
theorem unpacking_of_unpackedOn {hosts : List String} (hu : unpackedOn bound c hosts h (some ())) :
    ∃ replies : List ExecReply, replies.length = hosts.length ∧ (∀ reply ∈ replies, EndedWell reply)
      ∧ h = (hosts.zip replies).map fun x => unpacking c x.1 x.2 := by
  unfold unpackedOn at hu
  split at hu
  · rename_i hnone
    obtain ⟨rfl, -⟩ := hu
    exact ⟨[], by simp [List.isEmpty_iff.mp hnone], nofun, by simp⟩
  · obtain ⟨result, early, late, rfl, hrun, rfl, -⟩ := Course.bind_some_iff.mp hu
    obtain ⟨replies, hlength, rfl, hended, -⟩ := insisted_ends hrun
    refine ⟨replies, hlength, ?_, List.append_nil _⟩
    simpa using hended

/-- What comes of the course of an update that is through. -/
theorem renews_of_renewed {always : Bool} {update : PayloadUpdate} (hnodup : bound.hosts.Nodup)
    (hr : renewed fc c f bound always h (some update)) :
    ∃ delivery replies, Renews c bound.hosts always h delivery replies update := by
  obtain ⟨_, listing, rest, rfl, hlisted, hrest⟩ := Course.bind_some_iff.mp hr
  obtain ⟨_, packing, rest, rfl, hpacked, hrest⟩ := Course.bind_some_iff.mp hrest
  obtain ⟨updated, syncing, rest, rfl, hsynced, hrest⟩ := Course.bind_some_iff.mp hrest
  obtain ⟨_, late, last, rfl, hunpacked, rfl, hupdate⟩ := Course.bind_some_iff.mp hrest
  cases hupdate
  obtain ⟨replies, hlength, hended, rfl⟩ := unpacking_of_unpackedOn hunpacked
  obtain ⟨hsyncing, hmem⟩ := delivering_of_syncedAll hnodup (List.Subset.refl _) hsynced
  -- the list of nodes is written and the archives are built on the local machine
  have hhere : ∀ e ∈ listing ++ packing, Here e := by
    intro e he
    rcases List.mem_append.mp he with he | he
    · exact only_here_listed _ _ hlisted e he
    · exact only_here_packed _ _ hpacked e he
  have hdelivery : ∀ e ∈ listing ++ packing ++ syncing, Delivering c bound.hosts e := by
    intro e he
    rcases List.mem_append.mp he with he | he
    · obtain ⟨call, reply, rfl⟩ := hhere e he
      exact .here call reply
    · exact hsyncing e he
  have harrival (archive host : String) : arrival c archive host ∈ listing ++ packing ++ syncing
        ++ ((bound.hosts.filter fun host => always || updated.contains host).zip replies).map
          (fun x => unpacking c x.1 x.2) ↔ arrival c archive host ∈ syncing := by
    rw [List.mem_append, List.mem_append]
    refine ⟨?_, fun hm => Or.inl (Or.inr hm)⟩
    rintro ((hm | hm) | hm)
    · obtain ⟨_, _, heq⟩ := hhere _ hm
      cases heq
    · exact hm
    · obtain ⟨_, -, heq⟩ := List.mem_map.mp hm
      cases heq
  rw [List.append_nil, ← List.append_assoc packing, ← List.append_assoc listing, ← List.append_assoc listing]
  refine ⟨listing ++ packing ++ syncing, replies, ?_, hdelivery, hlength, hended, fun host => ?_, pairwise_sorted _, ?_⟩
  · rfl
  · rw [mem_sorted, hmem]
    simp only [harrival]
  · cases always with
    | true => simp
    | false => simp [mem_sorted]

end Course

/-- The hosts that received an archive are bound. -/
theorem Renews.updated_subset {hosts : List String} {always : Bool} {exchanged delivery : List Exchange}
    {replies : List ExecReply} {update : PayloadUpdate}
    (h : Renews c hosts always exchanged delivery replies update) : update.updated ⊆ hosts := by
  intro host hm
  obtain ⟨archive, -, harrived⟩ := (h.updated host).mp hm
  rw [h.order] at harrived
  rcases List.mem_append.mp harrived with hm | hm
  · have hkind := h.delivering _ hm
    generalize he : arrival c archive host = e at hkind
    cases hkind with
    | here call reply => cases he
    | checked ha hh hended => cases he
    | arrived ha hh =>
      unfold arrival copy at he
      injection he with hrequest
      injection hrequest with hcall
      injection hcall with hhost
      exact hhost ▸ hh
  · obtain ⟨_, -, heq⟩ := List.mem_map.mp hm
    cases heq

/-- The hosts that unpack are all of them, or else those that received an archive. -/
theorem Renews.mem_unpacked {hosts : List String} {always : Bool} {exchanged delivery : List Exchange}
    {replies : List ExecReply} {update : PayloadUpdate}
    (h : Renews c hosts always exchanged delivery replies update) (host : String) :
    host ∈ update.unpacked ↔ if always then host ∈ hosts else host ∈ update.updated := by
  rw [h.unpacked]
  cases always with
  | true => exact Iff.rfl
  | false =>
    rw [if_neg Bool.false_ne_true, if_neg Bool.false_ne_true, List.mem_filter, decide_eq_true_iff]
    exact and_iff_right_of_imp fun hm => h.updated_subset hm

/-! ## Without hosts -/

section Nowhere

variable {w : World σ} {s : Run Session σ}

/-- A sync does not return where no host is bound. -/
theorem syncFile_nowhere (localPath : Path) (name : String) (hnone : s.own.hosts = []) :
    Ensures w (syncFile c localPath name) s (fun _ _ => False) fun _ _ => True := by
  have hread : Keeps w (fun t => t.own.hosts = []) (fileDigest localPath : BenchProgram String) :=
    keeps_fileDigest (fun _ _ _ ht => ht) _
  refine ((Ensures.of_keeps hread hnone).mono (fun _ _ h => h) fun _ _ _ => trivial).bind fun digest t ht => ?_
  have hrefused : Ensures w (Session.run (digestCommand (c.remotePath name)) {}) t (fun _ _ => False)
      fun _ _ => True := by
    refine .consult ?_
    rw [ht]
    exact .raise trivial
  have hreported : Ensures w (Program.reportRemote (Session.run (digestCommand (c.remotePath name)) {})) t
      (fun _ _ => False) fun _ _ => True := hrefused.mapError fun _ _ _ => trivial
  exact (hreported.mapError fun _ _ _ => trivial).bind fun _ _ hfalse => hfalse.elim

/-- Where no host is bound, an update returns only if there are no archives. -/
theorem archives_of_nowhere {always : Bool} {update : PayloadUpdate} {t : Run Session σ} (hnone : s.own.hosts = [])
    (hrun : (updatePayload fc c f always).run w s = (.returned update, t)) : c.archives = [] := by
  by_contra hsome
  obtain ⟨archive, archives, harchives⟩ := List.exists_cons_of_ne_nil hsome
  have hnowhere : Ensures w (updatePayload fc c f always) s (fun _ _ => False) fun _ _ => True := by
    have hlist : Keeps w (fun u : Run Session σ => u.own.hosts = []) (Program.within "node list"
        (Program.reportFleet (f.writeNodeList fc.nodeListPath fc.nodeListPort))) :=
      keeps_nodeList (fun _ _ _ ht => ht) fc f
    have hpack : Keeps w (fun u : Run Session σ => u.own.hosts = []) (pack c) := keeps_pack (fun _ _ _ ht => ht) c
    refine ((Ensures.of_keeps hlist hnone).mono (fun _ _ h => h) fun _ _ _ => trivial).bind fun _ u hu => ?_
    refine ((Ensures.of_keeps hpack hu).mono (fun _ _ h => h) fun _ _ _ => trivial).bind fun _ v hv => ?_
    refine .bind (Q := fun _ _ => False) ?_ fun _ _ hfalse => hfalse.elim
    rw [harchives]
    exact (syncFile_nowhere _ _ hv).bind fun _ _ hfalse => hfalse.elim
  exact hnowhere.of_returned hrun

end Nowhere

/-! ## The unpack command -/

/-- The simple commands by which archives replace a workload. -/
def unpackCommands (home workload : String) (archives : List String) : List (List String) :=
  ["cd", home] :: ["rm", "-rf", workload] :: archives.map fun archive => ["unzip", "-o", "-q", archive]

/-- **The unpack command is a chain.** Whatever words are configured, a shell reads it as going to the home directory,
removing the workload, and then unpacking each archive in the configured order. -/
theorem chain?_unpackCommand {home workload : String} {archives : List String}
    (hhome : Posix.Writes c.remoteHome home) (hworkload : Posix.Writes c.workloadDir workload)
    (harchives : List.Forall₂ Posix.Writes c.archives archives) :
    Posix.chain? (unpackCommand c) = some (unpackCommands home workload archives) := by
  have hcd : Posix.words? ("cd " ++ c.remoteHome) = some ["cd", home] :=
    Posix.words?_append ["cd".toList] (by simp) (by decide) hhome
  have hrm : Posix.words? ("rm -rf " ++ c.workloadDir) = some ["rm", "-rf", workload] :=
    Posix.words?_append ["rm".toList, "-rf".toList] (by simp) (by decide) hworkload
  have hunzip {text word : String} (hword : Posix.Writes text word) :
      Posix.words? ("unzip -o -q " ++ text) = some ["unzip", "-o", "-q", word] :=
    Posix.words?_append ["unzip".toList, "-o".toList, "-q".toList] (by simp) (by decide) hword
  refine Posix.chain?_intercalate (List.cons_ne_nil _ _) (.cons ⟨hcd, by simp⟩ (.cons ⟨hrm, by simp⟩ ?_))
  refine List.forall₂_map_left_iff.mpr (List.forall₂_map_right_iff.mpr ?_)
  exact harchives.imp fun text word hword => ⟨hunzip hword, by simp⟩

/-- **Hosts unpack what they received.** Let an update of the payload return, with distinct hosts bound. It delivered
the archives before anything was unpacked; it calls updated, in order and without repetition, exactly the hosts that
received an archive in it. The hosts that ran the unpack command are those that it calls unpacked, once each and in
their order: all of them if that was asked for, and else those that received an archive. The unpack command removes the
workload and then unpacks the archives in order, each step only after those before it succeeded. -/
theorem payload_is_unpacked_where_received (w : World σ) (fc : FleetConfig) (c : BenchConfig) (f : Fleet)
    (always : Bool) (s t : Run Session σ) (update : PayloadUpdate) (hnodup : s.own.hosts.Nodup)
    (hrun : (updatePayload fc c f always).run w s = (.returned update, t)) :
    (∃ new delivery replies, t.history = s.history ++ new
        ∧ Renews c s.own.hosts always (effects new) delivery replies update
        ∧ (effects new).filterMap (unpacks? c) = update.unpacked)
      ∧ update.updated ⊆ s.own.hosts
      ∧ (∀ host, host ∈ update.unpacked ↔ if always then host ∈ s.own.hosts else host ∈ update.updated)
      ∧ unpackCommand c = " && ".intercalate (("cd " ++ c.remoteHome) :: ("rm -rf " ++ c.workloadDir)
        :: c.archives.map fun archive => "unzip -o -q " ++ archive)
      ∧ ∀ home workload archives, Posix.Writes c.remoteHome home → Posix.Writes c.workloadDir workload →
        List.Forall₂ Posix.Writes c.archives archives →
        Posix.chain? (unpackCommand c) = some (unpackCommands home workload archives)
          ∧ ∀ {τ : Type} (exec : List String → τ → Bool × τ) (state : τ),
            Posix.Stepwise (unpackCommands home workload archives)
              (Posix.runChain exec (unpackCommands home workload archives) state) := by
  have hsome : s.own.hosts ≠ [] ∨ c.archives = [] := by
    by_cases hnone : s.own.hosts = []
    · exact Or.inr (archives_of_nowhere hnone hrun)
    · exact Or.inl hnone
  have hat : At s.own s.own := ⟨rfl, rfl⟩
  obtain ⟨new, hh, hcourse, -⟩ := follows_renewed (w := w) c fc f always hsome hat
  rw [hrun] at hh hcourse
  obtain ⟨delivery, replies, hrenews⟩ := renews_of_renewed hnodup hcourse
  exact ⟨⟨new, delivery, replies, hh, hrenews, hrenews.unpacks⟩, hrenews.updated_subset, hrenews.mem_unpacked, rfl,
    fun home workload archives hhome hworkload harchives =>
      ⟨chain?_unpackCommand hhome hworkload harchives, fun exec state => Posix.stepwise_runChain exec _ state⟩⟩

/-- A session on two hosts that do not have the archive, not in the order of their names. -/
def reversed : Run Session (String → Option String) := ⟨{ hosts := ["b", "a"] }, fun _ => none, []⟩

/-- Both hosts receive the archive, and unpack it in the order of the session. -/
theorem payload_is_unpacked_where_received_reversed :
    ∃ t, reversed.own.hosts.Nodup
      ∧ (updatePayload {} singleArchive {} false).run (shelf zipped) reversed = (.returned ⟨["a", "b"], ["b", "a"]⟩, t)
      ∧ (∃ new delivery replies, t.history = new
        ∧ Renews singleArchive ["b", "a"] false (effects new) delivery replies ⟨["a", "b"], ["b", "a"]⟩
        ∧ (effects new).filterMap (unpacks? singleArchive) = ["b", "a"])
      ∧ Posix.chain? (unpackCommand singleArchive)
        = some [["cd", "/home/ec2-user"], ["rm", "-rf", "hydrand.py"], ["unzip", "-o", "-q", "app.zip"]] := by
  have hlist : ({} : Fleet).nodeAddresses = [] := List.mergeSort_nil
  have hperm : (sorted ["b", "a"]).Perm ["a", "b"] := (List.mergeSort_perm _ _).trans (.swap "a" "b" [])
  have hsorted : sorted ["b", "a"] = ["a", "b"] :=
    hperm.eq_of_pairwise (fun _ _ _ _ => String.le_antisymm) (pairwise_mergeSort_by id _) (by decide)
  have hreturned : ((updatePayload {} singleArchive {} false).run (shelf zipped) reversed).1
      = .returned ⟨["a", "b"], ["b", "a"]⟩ := by
    rw [← hsorted]
    unfold updatePayload Fleet.writeNodeList
    rw [hlist]
    rfl
  have hrun := Prod.ext (y := (_, _)) hreturned rfl
  obtain ⟨hdone, -, -, -, hread⟩ := payload_is_unpacked_where_received (shelf zipped) {} singleArchive {} false
    reversed _ _ (by decide) hrun
  have hchain := (hread _ _ _ (Posix.writes_plain (by decide) (by decide)) (Posix.writes_plain (by decide) (by decide))
    (.cons (Posix.writes_plain (by decide) (by decide)) .nil)).1
  exact ⟨_, by decide, hrun, hdone, hchain⟩

end CloudFleet.Bench
