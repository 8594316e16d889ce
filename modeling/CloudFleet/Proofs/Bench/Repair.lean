import CloudFleet.Proofs.Bench.Depot
import CloudFleet.Proofs.Bench.Operation

/-!
# What an update of the payload repairs

Hosts are in step if what they have unpacked is what lies there (`Disks.InStep`). An update that returns leaves the
local archives on every bound host, and unpacks exactly on the hosts that lacked one when it began
(`updatePayload_ensures`).
-/

set_option autoImplicit false

namespace CloudFleet.Bench

variable {σ : Type}

open Program (Ensures)
open Session (ExecReply)

/-- The host lacks the local archive. -/
def Lacks (c : BenchConfig) (contents : Path → ByteArray) (d : Disks) (host archive : String) : Prop :=
  d.digest? host (c.remotePath archive) ≠ some (Digest.digest (contents (Path.join c.payloadDir archive)))

/-- Memory, hosts and local files are as before. -/
structure Untouched (s t : Run Session (Depot σ)) : Prop where
  own : t.own = s.own
  disks : t.world.disks = s.world.disks
  contents : t.world.contents = s.world.contents

theorem Untouched.refl (s : Run Session (Depot σ)) : Untouched s s := ⟨rfl, rfl, rfl⟩

theorem Untouched.ask {c : BenchConfig} {w : World σ} {s t : Run Session (Depot σ)} (h : Untouched s t) {r : Request}
    (hr : r.remote = false) : Untouched s (t.ask (depot c w) r) :=
  ⟨h.own, (disks_ask t hr).trans h.disks, h.contents⟩

section Parts

variable {c : BenchConfig} {w : World σ} {s : Run Session (Depot σ)}

/-- What is reported of a failure on the hosts makes no difference to what is ensured. -/
theorem reported_ensures {α : Type} {p : SessionProgram α} {Q : α → Run Session (Depot σ) → Prop}
    {F : Run Session (Depot σ) → Prop} (h : Ensures (depot c w) p s Q fun _ => F) (context : String) :
    Ensures (depot c w) (Program.within context (Program.reportRemote p)) s Q fun _ => F := by
  have hreport : Ensures (depot c w) (Program.reportRemote p) s Q fun _ => F := h.mapError fun _ _ h => h
  exact hreport.mapError fun _ _ h => h

/-! ## Digests -/

/-- The digest of a local file is that of its contents. -/
theorem fileDigest_ensures (path : Path) :
    Ensures (depot c w) (fileDigest path : BenchProgram String) s
      (fun digest t => Untouched s t ∧ digest = Digest.digest (s.world.contents path)) fun _ t => t.own = s.own := by
  have hread : Ensures (depot c w) (Program.reportFile (.readBytes path) : BenchProgram ByteArray) s
      (fun bytes t => Untouched s t ∧ bytes = s.world.contents path) fun _ t => t.own = s.own := by
    refine Ensures.ask ?_
    cases hanswer : (w.answer (.file (.readBytes path)) s.world.rest).1 with
    | ok bytes =>
      have hreply : s.reply (depot c w) (.file (.readBytes path)) = .ok (s.world.contents path) := by
        show s.world.seen c (.file (.readBytes path)) (w.answer (.file (.readBytes path)) s.world.rest).1 = _
        rw [hanswer]
        rfl
      rw [hreply]
      exact Ensures.pure ⟨(Untouched.refl s).ask rfl, rfl⟩
    | error e =>
      have hreply : s.reply (depot c w) (.file (.readBytes path)) = .error e := by
        show s.world.seen c (.file (.readBytes path)) (w.answer (.file (.readBytes path)) s.world.rest).1 = _
        rw [hanswer]
        rfl
      rw [hreply]
      exact Ensures.raise rfl
  refine (hread.mapError fun _ _ h => h).bind fun bytes t ⟨ht, hbytes⟩ => Ensures.pure ⟨ht, ?_⟩
  rw [hbytes]

/-! ## Syncing -/

/-- Hosts were asked for the digest of a file, and those that answered with success printed what lies there. -/
structure Checked (remote : String) (s : Run Session (Depot σ)) (done : List (String × ExecReply))
    (t : Run Session (Depot σ)) : Prop where
  untouched : Untouched s t
  printed : ∀ host delay out, (host, .after delay (.ok out)) ∈ done → out.exitCode = some 0 →
    out.stdout = s.world.disks.line host remote

/-- One host more is asked. -/
theorem Checked.exec {archive : String} (harchive : archive ∈ c.archives) {done : List (String × ExecReply)}
    {t : Run Session (Depot σ)} (h : Checked (c.remotePath archive) s done t) (host : String) :
    Checked (c.remotePath archive) s
      (done ++ [(host, t.reply (depot c w) (.shell (.exec host (digestCommand (c.remotePath archive)) false)))])
      (t.ask (depot c w) (.shell (.exec host (digestCommand (c.remotePath archive)) false))) := by
  obtain ⟨hdisks, hprinted⟩ := depot_check (w := w) t harchive host
  refine ⟨⟨h.untouched.own, hdisks.trans h.untouched.disks, h.untouched.contents⟩, fun other delay out hm hcode => ?_⟩
  rcases List.mem_append.mp hm with hm | hm
  · exact h.printed other delay out hm hcode
  · obtain ⟨rfl, hreply⟩ := Prod.mk.inj (List.mem_singleton.mp hm)
    rw [hprinted delay out hreply.symm hcode, h.untouched.disks]

/-- Every host is asked for the digest that lies there. -/
theorem check_ensures {archive : String} (harchive : archive ∈ c.archives) :
    Ensures (depot c w) (Session.run (digestCommand (c.remotePath archive)) {}) s
      (fun result t => Untouched s t ∧ ∀ host ∈ s.own.hosts,
        printedDigest result host = s.world.disks.digest? host (c.remotePath archive))
      fun _ t => t.own = s.own := by
  refine (Session.run_ensures (I := Checked (c.remotePath archive) s) _ ⟨.refl s, by simp⟩
    (fun _ host _ _ h => h.exec harchive host) fun _ _ _ hr h => ⟨h.untouched.ask hr, h.printed⟩).mono
    (fun result t ⟨done, h, hall⟩ => ⟨h.untouched, fun host hm => ?_⟩) fun _ _ ⟨_, h⟩ => h.untouched.own
  obtain ⟨out, delay, hcode, hmem, hfind⟩ := hall host hm
  rw [printedDigest, hfind, ← firstWord?_line, ← h.printed host delay out hmem hcode]
  rfl

/-- What is different after an archive was copied to some hosts. -/
structure Copied (c : BenchConfig) (archive : String) (hosts : List String) (d e : Depot σ) : Prop where
  contents : e.contents = d.contents
  unpacked : e.disks.unpacked = d.disks.unpacked
  there : ∀ host ∈ hosts, e.disks.stored host (c.remotePath archive)
    = some (d.contents (Path.join c.payloadDir archive))
  others : ∀ host remote, host ∉ hosts ∨ remote ≠ c.remotePath archive →
    e.disks.stored host remote = d.disks.stored host remote

theorem Untouched.copied {archive : String} {hosts : List String} {t : Run Session (Depot σ)} {e : Depot σ}
    (h : Untouched s t) (he : Copied c archive hosts t.world e) : Copied c archive hosts s.world e := by
  refine ⟨he.contents.trans h.contents, he.unpacked.trans (congrArg Disks.unpacked h.disks), ?_, ?_⟩
  · rw [← h.contents]
    exact he.there
  · rw [← h.disks]
    exact he.others

theorem Untouched.copied_nil {t : Run Session (Depot σ)} (h : Untouched s t) (archive : String) :
    Copied c archive [] s.world t.world := by
  refine ⟨h.contents, congrArg Disks.unpacked h.disks, fun host hm => ?_, fun host remote _ => ?_⟩
  · cases hm
  · rw [h.disks]

/-- While an archive is copied to the bound hosts: those whose copy succeeded have it. -/
structure Copying (c : BenchConfig) (archive : String) (s : Run Session (Depot σ))
    (done : List (String × Except TransportError Unit)) (t : Run Session (Depot σ)) : Prop where
  own : t.own = s.own
  contents : t.world.contents = s.world.contents
  unpacked : t.world.disks.unpacked = s.world.disks.unpacked
  there : ∀ host, (host, .ok ()) ∈ done → t.world.disks.stored host (c.remotePath archive)
    = some (s.world.contents (Path.join c.payloadDir archive))
  others : ∀ host remote, host ∉ s.own.hosts ∨ remote ≠ c.remotePath archive →
    t.world.disks.stored host remote = s.world.disks.stored host remote

namespace Copying

variable {archive : String} {done : List (String × Except TransportError Unit)} {t u : Run Session (Depot σ)}

/-- A host that did not answer with success changes nothing. -/
theorem refused (h : Copying c archive s done t) (host : String) (e : TransportError) (hown : u.own = t.own)
    (hcontents : u.world.contents = t.world.contents) (hdisks : u.world.disks = t.world.disks) :
    Copying c archive s (done ++ [(host, .error e)]) u := by
  refine ⟨hown.trans h.own, hcontents.trans h.contents, by rw [hdisks, h.unpacked], fun other hm => ?_, ?_⟩
  · rw [hdisks]
    rcases List.mem_append.mp hm with hm | hm
    · exact h.there other hm
    · cases List.mem_singleton.mp hm
  · rw [hdisks]
    exact h.others

/-- A bound host that received the archive has it; what others have stays. -/
theorem received (h : Copying c archive s done t) {host : String} (hhost : host ∈ s.own.hosts) (hown : u.own = t.own)
    (hcontents : u.world.contents = t.world.contents)
    (hdisks : u.world.disks = t.world.disks.receive host (c.remotePath archive)
      (s.world.contents (Path.join c.payloadDir archive))) :
    Copying c archive s (done ++ [(host, .ok ())]) u := by
  refine ⟨hown.trans h.own, hcontents.trans h.contents, by rw [hdisks]; exact h.unpacked, fun other hm => ?_,
    fun other remote hne => ?_⟩
  · rw [hdisks, Disks.receive]
    dsimp only
    split
    · rfl
    · rename_i hdiff
      rcases List.mem_append.mp hm with hm | hm
      · exact h.there other hm
      · cases List.mem_singleton.mp hm
        exact absurd ⟨rfl, rfl⟩ hdiff
  · rw [hdisks, Disks.receive]
    dsimp only
    rw [if_neg]
    · exact h.others other remote hne
    · rintro ⟨rfl, rfl⟩
      rcases hne with hne | hne
      · exact hne hhost
      · exact hne rfl

/-- One host more is called. -/
theorem copyTo (h : Copying c archive s done t) {host : String} (hhost : host ∈ s.own.hosts) :
    Copying c archive s (done ++ [(host, t.reply (depot c w)
        (.shell (.copyTo host (Path.join c.payloadDir archive) (c.remotePath archive))))])
      (t.ask (depot c w) (.shell (.copyTo host (Path.join c.payloadDir archive) (c.remotePath archive)))) := by
  cases hreply : t.reply (depot c w) (.shell (.copyTo host (Path.join c.payloadDir archive) (c.remotePath archive)))
    with
  | error e => exact h.refused host e rfl rfl (disks_copyTo_error t hreply)
  | ok _ =>
    have hdisks := disks_copyTo t hreply
    rw [h.contents] at hdisks
    exact h.received hhost rfl rfl hdisks

end Copying

/-- A copy to all bound hosts. -/
theorem copy_ensures (archive : String) :
    Ensures (depot c w) (Session.copyTo (Path.join c.payloadDir archive) (c.remotePath archive)) s
      (fun _ t => t.own = s.own ∧ Copied c archive s.own.hosts s.world t.world) fun _ t => t.own = s.own := by
  refine (Session.copyTo_ensures (I := Copying c archive s) _ _ ⟨rfl, rfl, rfl, by simp, fun _ _ _ => rfl⟩
    fun _ _ _ hhost h => h.copyTo hhost).mono (fun _ t ⟨done, h, hall⟩ => ⟨h.own, ?_⟩) fun _ _ ⟨_, h⟩ => h.own
  exact ⟨h.contents, h.unpacked, fun host hm => h.there host (hall host hm), h.others⟩

/-- What aims at other hosts and back leaves the memory as it was. -/
theorem own_aimed_back {u v : Run Session (Depot σ)} {hosts : List String}
    (h : u.own = (v.change (Session.Change.aimed hosts)).own) :
    (u.change (Session.Change.aimed v.own.hosts)).own = v.own := by
  rw [Run.own_change, h]
  rfl

/-- A copy to some hosts, after nothing but local requests. -/
theorem narrowedCopy_ensures (archive : String) (hosts : List String) {v : Run Session (Depot σ)} (hv : Untouched s v) :
    Ensures (depot c w)
      (Session.narrowed hosts (Session.copyTo (Path.join c.payloadDir archive) (c.remotePath archive))) v
      (fun _ t => t.own = s.own ∧ Copied c archive hosts s.world t.world) fun _ t => t.own = s.own := by
  refine Session.narrowed_ensures ((copy_ensures archive).mono (fun _ t ⟨ht, hcopied⟩ => ⟨?_, ?_⟩) fun _ t ht => ?_)
  · exact (own_aimed_back ht).trans hv.own
  · exact hv.copied hcopied
  · exact (own_aimed_back ht).trans hv.own

/-- An archive is copied to the hosts that lack it. -/
theorem syncFile_ensures {archive : String} (harchive : archive ∈ c.archives) :
    Ensures (depot c w) (syncFile c (Path.join c.payloadDir archive) archive) s
      (fun outdated t => t.own = s.own ∧ Copied c archive outdated s.world t.world ∧ ∀ host, host ∈ outdated ↔
        host ∈ s.own.hosts ∧ Lacks c s.world.contents s.world.disks host archive)
      fun _ t => t.own = s.own := by
  refine (fileDigest_ensures _).bind fun digest t ⟨ht, hdigest⟩ => ?_
  subst hdigest
  have hcheck := (check_ensures (w := w) (s := t) harchive).mono (fun _ _ h => h) fun _ _ h => h.trans ht.own
  refine (reported_ensures hcheck _).bind fun result u ⟨hu, hprinted⟩ => ?_
  refine Ensures.consult ?_
  -- neither the digest of the local file nor the question for those of the hosts changes anything
  have hown : u.own = s.own := hu.own.trans ht.own
  have hsu : Untouched s u := ⟨hown, hu.disks.trans ht.disks, hu.contents.trans ht.contents⟩
  generalize houtdated : (u.own.hosts.filter fun host => printedDigest result host
    != some (Digest.digest (s.world.contents (Path.join c.payloadDir archive)))) = outdated
  have hmem : ∀ host, host ∈ outdated ↔
      host ∈ s.own.hosts ∧ Lacks c s.world.contents s.world.disks host archive := by
    intro host
    rw [← houtdated, List.mem_filter, hown]
    refine and_congr_right fun hm => ?_
    rw [hprinted host (by rw [ht.own]; exact hm), ht.disks, bne_iff_ne]
    rfl
  dsimp only
  split
  · rename_i hempty
    refine Ensures.ask (Ensures.pure ⟨hown, ?_, hmem⟩)
    rw [List.isEmpty_iff.mp hempty]
    exact (hsu.ask rfl).copied_nil archive
  · refine Ensures.ask ?_
    refine (reported_ensures (narrowedCopy_ensures archive outdated ?_) _).bind
      fun _ v ⟨hv, hcopied⟩ => Ensures.pure ⟨hv, hcopied, hmem⟩
    exact hsu.ask rfl

/-- After an archive was copied to the hosts that lack it, they lack what else they lacked. -/
theorem Copied.lacks_iff {archive : String} {outdated hosts : List String} {d e : Depot σ}
    (h : Copied c archive outdated d e)
    (hmem : ∀ host, host ∈ outdated ↔ host ∈ hosts ∧ Lacks c d.contents d.disks host archive) {host : String}
    (hhost : host ∈ hosts) (a : String) :
    Lacks c e.contents e.disks host a ↔ a ≠ archive ∧ Lacks c d.contents d.disks host a := by
  by_cases ha : a = archive
  · subst ha
    refine ⟨fun hl => absurd ?_ hl, fun hl => absurd rfl hl.1⟩
    rw [Disks.digest?, h.contents]
    by_cases ho : host ∈ outdated
    · rw [h.there host ho]
      rfl
    · rw [h.others host _ (Or.inl ho)]
      by_contra hl
      exact ho ((hmem host).mpr ⟨hhost, hl⟩)
  · have hremote : c.remotePath a ≠ c.remotePath archive := fun he => ha (remotePath_injective he)
    rw [Lacks, Disks.digest?, h.contents, h.others host _ (Or.inr hremote)]
    exact ⟨fun hl => ⟨ha, hl⟩, fun hl => hl.2⟩

/-- What is different after archives were synced to the bound hosts, some of which got one. -/
structure Synced (c : BenchConfig) (archives hosts updated : List String) (d e : Depot σ) : Prop where
  contents : e.contents = d.contents
  unpacked : e.disks.unpacked = d.disks.unpacked
  /-- Those that lacked one got one. -/
  updated_iff : ∀ host, host ∈ updated ↔
    host ∈ hosts ∧ ∃ archive ∈ archives, Lacks c d.contents d.disks host archive
  /-- Nothing is lacking any more. -/
  current : ∀ host ∈ hosts, ∀ archive ∈ archives, ¬Lacks c e.contents e.disks host archive
  others : ∀ host remote, e.disks.stored host remote = d.disks.stored host remote
    ∨ host ∈ updated ∧ ∃ archive ∈ archives, remote = c.remotePath archive
      ∧ e.disks.stored host remote = some (d.contents (Path.join c.payloadDir archive))

theorem Synced.nil (hosts : List String) {d e : Depot σ} (hc : e.contents = d.contents) (hd : e.disks = d.disks) :
    Synced c [] hosts [] d e :=
  ⟨hc, congrArg Disks.unpacked hd, by simp, by simp, fun _ _ => Or.inl (by rw [hd])⟩

/-- One archive more, synced first. -/
theorem Synced.cons {archive : String} {archives hosts outdated updated : List String} {d e f : Depot σ}
    (h : Copied c archive outdated d e)
    (hmem : ∀ host, host ∈ outdated ↔ host ∈ hosts ∧ Lacks c d.contents d.disks host archive)
    (hrest : Synced c archives hosts updated e f) :
    Synced c (archive :: archives) hosts (outdated ++ updated) d f := by
  refine ⟨hrest.contents.trans h.contents, hrest.unpacked.trans h.unpacked, fun host => ?_, fun host hhost a ha => ?_,
    fun host remote => ?_⟩
  · rw [List.mem_append, hmem, hrest.updated_iff]
    constructor
    · rintro (⟨hhost, hl⟩ | ⟨hhost, a, ha, hl⟩)
      · exact ⟨hhost, archive, List.mem_cons_self, hl⟩
      · exact ⟨hhost, a, List.mem_cons_of_mem _ ha, ((h.lacks_iff hmem hhost a).mp hl).2⟩
    · rintro ⟨hhost, a, ha, hl⟩
      by_cases hne : a = archive
      · exact Or.inl ⟨hhost, hne ▸ hl⟩
      · have ha' : a ∈ archives := (List.mem_cons.mp ha).resolve_left hne
        exact Or.inr ⟨hhost, a, ha', (h.lacks_iff hmem hhost a).mpr ⟨hne, hl⟩⟩
  · rcases List.mem_cons.mp ha with rfl | ha
    · -- the archive synced first may be listed again, and then be copied once more
      rcases hrest.others host (c.remotePath a) with hsame | ⟨-, b, -, hremote, hstored⟩
      · have hnot : ¬Lacks c e.contents e.disks host a := fun hl => ((h.lacks_iff hmem hhost a).mp hl).1 rfl
        rw [Lacks, Disks.digest?, hrest.contents, hsame]
        exact hnot
      · rw [Lacks, Disks.digest?, hrest.contents, hstored, remotePath_injective hremote]
        exact fun hl => hl rfl
    · exact hrest.current host hhost a ha
  · rcases hrest.others host remote with hsame | ⟨hu, a, ha, hremote, hstored⟩
    · by_cases ho : host ∈ outdated ∧ remote = c.remotePath archive
      · obtain ⟨ho, rfl⟩ := ho
        refine Or.inr ⟨List.mem_append_left _ ho, archive, List.mem_cons_self, rfl, ?_⟩
        rw [hsame, h.there host ho]
      · refine Or.inl (hsame.trans (h.others host remote ?_))
        rwa [← not_and_or]
    · rw [h.contents] at hstored
      exact Or.inr ⟨List.mem_append_right _ hu, a, List.mem_cons_of_mem _ ha, hremote, hstored⟩

/-- The archives are synced one after the other. -/
theorem syncArchives_ensures (archives : List String) (hsub : ∀ a ∈ archives, a ∈ c.archives)
    (s : Run Session (Depot σ)) :
    Ensures (depot c w) (syncArchives c archives) s
      (fun updated t => t.own = s.own ∧ Synced c archives s.own.hosts updated s.world t.world)
      fun _ t => t.own = s.own := by
  induction archives generalizing s with
  | nil => exact Ensures.pure ⟨rfl, .nil _ rfl rfl⟩
  | cons archive archives ih =>
    refine (syncFile_ensures (hsub archive List.mem_cons_self)).bind fun outdated t ⟨ht, hcopied, hmem⟩ => ?_
    have hrest := ih (fun a ha => hsub a (List.mem_cons_of_mem _ ha)) t
    refine (hrest.mono (fun _ _ h => h) fun _ u hu => hu.trans ht).bind fun updated u ⟨hu, hsynced⟩ => ?_
    rw [ht] at hsynced
    exact Ensures.pure ⟨hu.trans ht, .cons hcopied hmem hsynced⟩

/-! ## Unpacking -/

/-- What is different after some hosts unpacked. -/
structure Unpacked (hosts : List String) (d e : Depot σ) : Prop where
  contents : e.contents = d.contents
  stored : e.disks.stored = d.disks.stored
  there : ∀ host ∈ hosts, e.disks.unpacked host = d.disks.stored host
  others : ∀ host, host ∉ hosts → e.disks.unpacked host = d.disks.unpacked host

theorem Untouched.unpacked {hosts : List String} {t : Run Session (Depot σ)} {e : Depot σ} (h : Untouched s t)
    (he : Unpacked hosts t.world e) : Unpacked hosts s.world e := by
  refine ⟨he.contents.trans h.contents, he.stored.trans (congrArg Disks.stored h.disks), ?_, ?_⟩
  · rw [← h.disks]
    exact he.there
  · rw [← h.disks]
    exact he.others

theorem Untouched.unpacked_nil {t : Run Session (Depot σ)} (h : Untouched s t) : Unpacked [] s.world t.world := by
  refine ⟨h.contents, congrArg Disks.stored h.disks, fun host hm => ?_, fun host _ => ?_⟩
  · cases hm
  · rw [h.disks]

/-- While the bound hosts unpack: those that answered with success have unpacked what lies there. -/
structure Unpacking (s : Run Session (Depot σ)) (done : List (String × ExecReply)) (t : Run Session (Depot σ)) :
    Prop where
  own : t.own = s.own
  contents : t.world.contents = s.world.contents
  stored : t.world.disks.stored = s.world.disks.stored
  there : ∀ host reply, (host, reply) ∈ done → succeeds reply = true →
    t.world.disks.unpacked host = s.world.disks.stored host
  others : ∀ host, host ∉ s.own.hosts → t.world.disks.unpacked host = s.world.disks.unpacked host

namespace Unpacking

variable {done : List (String × ExecReply)} {t : Run Session (Depot σ)}

theorem ask (h : Unpacking s done t) {r : Request} (hr : r.remote = false) :
    Unpacking s done (t.ask (depot c w) r) := by
  have hdisks := disks_ask (c := c) (w := w) t hr
  refine ⟨h.own, h.contents, ?_, ?_, ?_⟩
  · rw [hdisks]
    exact h.stored
  · rw [hdisks]
    exact h.there
  · rw [hdisks]
    exact h.others

/-- One host more is called. -/
theorem exec (h : Unpacking s done t) {host : String} (hhost : host ∈ s.own.hosts) :
    Unpacking s (done ++ [(host, t.reply (depot c w) (.shell (.exec host (unpackCommand c) false)))])
      (t.ask (depot c w) (.shell (.exec host (unpackCommand c) false))) := by
  have hdisks := depot_unpack (c := c) (w := w) t host
  by_cases hs : succeeds (t.reply (depot c w) (.shell (.exec host (unpackCommand c) false))) = true
  · rw [if_pos hs] at hdisks
    refine ⟨h.own, h.contents, by rw [hdisks]; exact h.stored, fun other reply hm hreply => ?_, fun other hne => ?_⟩
    · rw [hdisks, Disks.unpack]
      dsimp only
      split
      · rename_i heq
        rw [heq, h.stored]
      · rename_i hne
        rcases List.mem_append.mp hm with hm | hm
        · exact h.there other reply hm hreply
        · cases List.mem_singleton.mp hm
          exact absurd rfl hne
    · rw [hdisks, Disks.unpack]
      dsimp only
      rw [if_neg fun he : other = host => hne (he ▸ hhost)]
      exact h.others other hne
  · rw [if_neg hs] at hdisks
    refine ⟨h.own, h.contents, by rw [hdisks]; exact h.stored, fun other reply hm hreply => ?_, ?_⟩
    · rw [hdisks]
      rcases List.mem_append.mp hm with hm | hm
      · exact h.there other reply hm hreply
      · cases List.mem_singleton.mp hm
        exact absurd hreply hs
    · rw [hdisks]
      exact h.others

end Unpacking

/-- The command that unpacks, on all bound hosts. -/
theorem runUnpack_ensures :
    Ensures (depot c w) (Session.run (unpackCommand c) {}) s
      (fun _ t => t.own = s.own ∧ Unpacked s.own.hosts s.world t.world) fun _ t => t.own = s.own := by
  refine (Session.run_ensures (I := Unpacking s) _ ⟨rfl, rfl, rfl, by simp, fun _ _ => rfl⟩
    (fun _ _ _ hhost h => h.exec hhost) fun _ _ _ hr h => h.ask hr).mono
    (fun result t ⟨done, h, hall⟩ => ⟨h.own, h.contents, h.stored, fun host hm => ?_, h.others⟩) fun _ _ ⟨_, h⟩ => h.own
  obtain ⟨out, delay, hcode, hmem, -⟩ := hall host hm
  refine h.there host _ hmem ?_
  simp [succeeds, hcode]

theorem unpack_ensures (hosts : List String) :
    Ensures (depot c w) (unpack c hosts) s
      (fun _ t => t.own = s.own ∧ Unpacked hosts s.world t.world) fun _ t => t.own = s.own := by
  have hlogged : ∀ line, Untouched s (s.ask (depot c w) (.log line)) := fun line => (Untouched.refl s).ask rfl
  unfold unpack
  split
  · rename_i hempty
    rw [List.isEmpty_iff.mp hempty]
    exact Ensures.request ⟨(hlogged _).own, (hlogged _).unpacked_nil⟩
  · refine Ensures.ask ?_
    refine (reported_ensures (Session.narrowed_ensures (runUnpack_ensures.mono ?_ ?_)) _).bind
      fun _ t ht => Ensures.pure ht
    · intro _ t ⟨ht, hunpacked⟩
      exact ⟨own_aimed_back ht, (hlogged _).unpacked hunpacked⟩
    · intro _ t ht
      exact own_aimed_back ht

/-! ## One update -/

/-- What an update that returns leaves behind. -/
structure Updated (c : BenchConfig) (hosts : List String) (d e : Depot σ) : Prop where
  /-- No host lacks a local archive any more. -/
  current : ∀ host ∈ hosts, ∀ archive ∈ c.archives, ¬Lacks c d.contents e.disks host archive
  /-- What lacked one is in step. -/
  repaired : ∀ host ∈ hosts, ∀ archive ∈ c.archives, Lacks c d.contents d.disks host archive → e.disks.InStep c host
  /-- What lacked none is left alone. -/
  spared : ∀ host, (∀ archive ∈ c.archives, ¬Lacks c d.contents d.disks host archive) →
    e.disks.stored host = d.disks.stored host ∧ e.disks.unpacked host = d.disks.unpacked host

theorem Synced.updated {hosts updated unpacked : List String} {d e f : Depot σ}
    (h : Synced c c.archives hosts updated d e) (hu : Unpacked unpacked e f)
    (hmem : ∀ host, host ∈ unpacked ↔ host ∈ hosts ∧ host ∈ updated) : Updated c hosts d f := by
  refine ⟨fun host hhost archive ha => ?_, fun host hhost archive ha hl => ?_, fun host hnone => ?_⟩
  · have hcurrent := h.current host hhost archive ha
    rw [Lacks, Disks.digest?, h.contents] at hcurrent
    rw [Lacks, Disks.digest?, hu.stored]
    exact hcurrent
  · have hunpacked : host ∈ unpacked := (hmem host).mpr ⟨hhost, (h.updated_iff host).mpr ⟨hhost, archive, ha, hl⟩⟩
    intro a _
    rw [Disks.digest?, hu.there host hunpacked, hu.stored]
  · have hnot : host ∉ updated := by
      intro hm
      obtain ⟨-, archive, ha, hl⟩ := (h.updated_iff host).mp hm
      exact hnone archive ha hl
    refine ⟨funext fun remote => ?_, ?_⟩
    · rw [hu.stored]
      exact (h.others host remote).resolve_right fun hm => hnot hm.1
    · rw [hu.others host fun hm => hnot ((hmem host).mp hm).2, h.unpacked]

theorem Untouched.updated {hosts : List String} {t : Run Session (Depot σ)} {e : Depot σ} (h : Untouched s t)
    (he : Updated c hosts t.world e) : Updated c hosts s.world e := by
  obtain ⟨hcurrent, hrepaired, hspared⟩ := he
  rw [h.contents, h.disks] at hrepaired hspared
  rw [h.contents] at hcurrent
  exact ⟨hcurrent, hrepaired, hspared⟩

/-- An update leaves the session as it was, and if it returns, the local archives on every bound host; it unpacks on
those that lacked one. -/
theorem updatePayload_ensures (fc : FleetConfig) (f : Fleet) :
    Ensures (depot c w) (updatePayload fc c f false) s
      (fun _ t => t.own = s.own ∧ Updated c s.own.hosts s.world t.world) fun _ t => t.own = s.own := by
  have hlocal : ∀ t r, r.remote = false → Untouched s t → Untouched s (t.ask (depot c w) r) := fun _ _ hr h => h.ask hr
  have hlist := Ensures.of_keeps (keeps_nodeList hlocal fc f) (.refl s)
  refine (hlist.mono (fun _ _ h => h) fun _ _ h => h.own).bind fun _ t ht => ?_
  have hpack := Ensures.of_keeps (keeps_pack hlocal c) ht
  refine (hpack.mono (fun _ _ h => h) fun _ _ h => h.own).bind fun _ u hu => ?_
  have hsync := syncArchives_ensures (w := w) c.archives (fun _ h => h) u
  refine (hsync.mono (fun _ _ h => h) fun _ _ h => h.trans hu.own).bind fun updated v ⟨hv, hsynced⟩ => ?_
  refine Ensures.consult ?_
  have hunpack := unpack_ensures (c := c) (w := w) (s := v)
    (v.own.hosts.filter fun host => false || updated.contains host)
  refine (hunpack.mono (fun _ _ h => h) fun _ _ h => h.trans (hv.trans hu.own)).bind fun _ x ⟨hx, hunpacked⟩ => ?_
  refine Ensures.pure ⟨hx.trans (hv.trans hu.own), ?_⟩
  rw [← hu.own]
  refine hu.updated (hsynced.updated hunpacked fun host => ?_)
  rw [hv, List.mem_filter]
  simp

end Parts

end CloudFleet.Bench
