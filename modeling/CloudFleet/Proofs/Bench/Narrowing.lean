import CloudFleet.Proofs.Bench.Operation
import CloudFleet.Proofs.Remote.Narrowing
import CloudFleet.World.Inert

/-!
# Operations leave the hosts as they were

Binding is the only way to other hosts: whatever else is asked of the hosts, and however it ends, the session has the
hosts and the instances that it had. In between it may be narrowed to some of its hosts, never to none of them, and in
their order (`Narrower`).
-/

set_option autoImplicit false

namespace CloudFleet.Bench

open Program (Keeps)
open Session (Nest Put Quiet Restores aims local_of_asked quiet_asked)

variable {σ ε α : Type}

/-- Whether the operation binds the session to the hosts of a fleet. -/
def Operation.rebinds : Operation → Bool
  | .connect _ => true
  | .runBenchmark .. => true
  | _ => false

/-- Some of the bound hosts, in their order. -/
def Narrower (bound hosts : List String) : Prop := hosts ≠ [] ∧ hosts.Sublist bound

/-- Where a session can be narrowed there are hosts. -/
theorem Narrower.bound {bound hosts : List String} (h : Narrower bound hosts) : Narrower bound bound := by
  refine ⟨fun hempty => h.1 ?_, .refl bound⟩
  rw [hempty] at h
  exact List.sublist_nil.mp h.2

/-! ## Parts that are not aimed anywhere else -/

section Quiet

variable (w : World σ) (c : BenchConfig)

/-- What is kept by all that neither starts processes nor closes them is quiet. -/
theorem quiet_of_asked {p : Program Session ε α}
    (hp : ∀ I : Run Session σ → Prop, (∀ s r, r.handles = false → I s → I (s.ask w r)) → Keeps w I p) : Quiet w p :=
  fun hosts ids aimed => hp _ (quiet_asked w hosts ids aimed)

theorem quiet_info (text : String) : Quiet w (.info text : BenchProgram Unit) :=
  quiet_of_asked w fun _ h => Session.keeps_log (local_of_asked h) _ _

theorem quiet_closeProcesses : Quiet w (closeProcesses c) := by
  intro hosts ids aimed
  have hlocal := local_of_asked (quiet_asked w hosts ids aimed)
  have hreleased := Session.put_change (σ := σ) hosts ids aimed (c := .released) (fun _ => ⟨rfl, rfl⟩) rfl
  have hrelease : Keeps w (Put hosts ids aimed) (Session.release : SessionProgram (List Process)) :=
    Keeps.memory.bind fun s => (Keeps.remember hreleased).bind fun _ => Keeps.pure _
  refine hrelease.bind fun processes => ?_
  split
  · exact Keeps.pure _
  · have hclose (process : Process) : Keeps w (Put hosts ids aimed) (closeProcess process : SessionProgram Unit) := by
      refine (Keeps.request fun t => Session.put_ask hosts ids aimed t _ :
        Keeps w (Put hosts ids aimed) (Session.hangUp process)).bind fun answer => ?_
      cases answer with
      | ok _ => exact Keeps.pure _
      | error e => exact Session.keeps_log hlocal _ _
    refine (Session.keeps_log hlocal _ _).bind fun _ => (Keeps.each processes fun process _ => hclose process).bind ?_
    exact fun _ => Session.keeps_local hlocal rfl

theorem quiet_cleanup : Quiet w (cleanup c) := fun hosts ids aimed =>
  keeps_cleanup (quiet_asked w hosts ids aimed) c (quiet_closeProcesses w c hosts ids aimed)

end Quiet

/-! ## The payload -/

section Payload

variable (w : World σ) (c : BenchConfig) {bound : List String} {s : Run Session σ}

/-- A copy or a command on some of the bound hosts, in the terms of a benchmark. -/
theorem restores_narrowed (context : String) {hosts : List String} {p : SessionProgram α} (hs : s.own.hosts = bound)
    (hhosts : Narrower bound hosts) (hquiet : Quiet w p) (hcrash : Program.NeverCrashes w p) :
    Restores w (Narrower bound) (Program.within context (Program.reportRemote (Session.narrowed hosts p))) s := by
  have hbefore : Narrower bound s.own.hosts := hs ▸ hhosts.bound
  exact (Restores.narrowed hhosts hbefore hcrash (hquiet.restores _)).mapError _ |>.mapError _

theorem restores_syncFile (localPath : Path) (name : String) (hs : s.own.hosts = bound) :
    Restores w (Narrower bound) (syncFile c localPath name) s := by
  have hdigest : Quiet w (fileDigest localPath : BenchProgram String) :=
    quiet_of_asked w fun _ h => keeps_fileDigest (local_of_asked h) _
  have hcheck : Quiet w (Program.within s!"digest of {c.remotePath name}"
      (Program.reportRemote (Session.run (digestCommand (c.remotePath name)) {}))) :=
    quiet_of_asked w fun _ h => keeps_within _ (keeps_reported (Session.keeps_run h _ _))
  refine (hdigest.restores s).bind fun digest t _ ht => (hcheck.restores t).bind fun result u _ hu => .consult ?_
  have hbound : u.own.hosts = bound := hu.trans (ht.trans hs)
  dsimp only
  split
  · exact ((quiet_info w _).restores u).bind fun _ v _ _ => Quiet.restores (fun _ _ _ => Keeps.pure _) v
  · rename_i hsome
    refine ((quiet_info w _).restores u).bind fun _ v _ hv => ?_
    have hnarrower : Narrower bound (u.own.hosts.filter fun host => printedDigest result host != some digest) :=
      ⟨by simpa using hsome, hbound ▸ List.filter_sublist⟩
    have hcopy : Quiet w (Session.copyTo localPath (c.remotePath name)) :=
      quiet_of_asked w fun _ h => Session.keeps_copyTo h _ _
    refine (restores_narrowed w _ (hv.trans hbound) hnarrower hcopy (Session.neverCrashes_copyTo w _ _)).bind ?_
    exact fun _ z _ _ => Quiet.restores (fun _ _ _ => Keeps.pure _) z

theorem restores_syncArchives (archives : List String) (hs : s.own.hosts = bound) :
    Restores w (Narrower bound) (syncArchives c archives) s := by
  induction archives generalizing s with
  | nil => exact Quiet.restores (fun _ _ _ => Keeps.pure _) s
  | cons archive archives ih =>
    refine (restores_syncFile w c _ archive hs).bind fun outdated t _ ht => ?_
    exact (ih (ht.trans hs)).bind fun rest u _ _ => Quiet.restores (fun _ _ _ => Keeps.pure _) u

theorem restores_unpack {hosts : List String} (hs : s.own.hosts = bound) (hsub : hosts.Sublist bound) :
    Restores w (Narrower bound) (unpack c hosts) s := by
  unfold unpack
  split
  · exact (quiet_info w _).restores s
  · rename_i hsome
    refine ((quiet_info w _).restores s).bind fun _ t _ ht => ?_
    have hrun : Quiet w (Session.run (unpackCommand c) {}) := quiet_of_asked w fun _ h => Session.keeps_run h _ _
    have hnarrower : Narrower bound hosts := ⟨by simpa using hsome, hsub⟩
    refine (restores_narrowed w _ (ht.trans hs) hnarrower hrun (Session.neverCrashes_run w _ _)).bind ?_
    exact fun _ u _ _ => Quiet.restores (fun _ _ _ => Keeps.pure _) u

theorem restores_updatePayload (fc : FleetConfig) (f : Fleet) (always : Bool) (hs : s.own.hosts = bound) :
    Restores w (Narrower bound) (updatePayload fc c f always) s := by
  have hlist : Quiet w (Program.within "node list"
      (Program.reportFleet (f.writeNodeList fc.nodeListPath fc.nodeListPort))) :=
    quiet_of_asked w fun _ h => keeps_nodeList (local_of_asked h) fc f
  have hpack : Quiet w (pack c) := quiet_of_asked w fun _ h => keeps_pack (local_of_asked h) c
  refine (hlist.restores s).bind fun _ t _ ht => (hpack.restores t).bind fun _ u _ hu => ?_
  have hu : u.own.hosts = bound := hu.trans (ht.trans hs)
  refine (restores_syncArchives w c _ hu).bind fun updated v _ hv => .consult ?_
  have hv : v.own.hosts = bound := hv.trans hu
  refine (restores_unpack w c hv (hv ▸ List.filter_sublist)).bind fun _ z _ _ => ?_
  exact Quiet.restores (fun _ _ _ => Keeps.pure _) z

end Payload

/-! ## All operations -/

theorem Restores.discarding {w : World σ} {allowed : List String → Prop} {p : BenchProgram α} {s : Run Session σ}
    (hp : Restores w allowed p s) : Restores w allowed (discarding p) s :=
  hp.bind fun _ t _ _ => Quiet.restores (fun _ _ _ => Keeps.pure _) t

/-- The hosts of a session survive: an operation that does not bind others ends with the hosts and instances of before,
and is aimed at some of the hosts only, in their order, and then back. So it is with whatever else is done on narrowed
sessions within each other. -/
theorem hosts_survive (w : World σ) (fc : FleetConfig) (c : BenchConfig) (s : Run Session σ) :
    (∀ o : Operation, o.rebinds = false → Restores w (Narrower s.own.hosts) (o.perform fc c) s)
      ∧ ∀ n : Nest, Restores w (fun _ => True) n.perform s := by
  refine ⟨fun o ho => ?_, fun n => Session.restores_nest w n s⟩
  cases o with
  | connect f => cases ho
  | runBenchmark patience f p => cases ho
  | run script options =>
    have hrun : Quiet w (Session.runScript script options) := quiet_of_asked w fun _ h => Session.keeps_runScript h _ _
    exact Restores.discarding ((hrun.restores s).mapError _)
  | syncFile localPath name => exact Restores.discarding (restores_syncFile w c localPath name rfl)
  | updatePayload f always => exact Restores.discarding (restores_updatePayload w c fc f always rfl)
  | cleanup => exact Restores.discarding (((quiet_cleanup w c).restores s).mapError _)
  | collectResults r =>
    have hcollect : Quiet w (collectResults c r : BenchProgram (Collected Verdict)) :=
      quiet_of_asked w fun _ h => keeps_collectResults h c r
    exact Restores.discarding (hcollect.restores s)
  | collectLogs r =>
    have hcollect : Quiet w (collectLogs c r : BenchProgram (Collected Path)) :=
      quiet_of_asked w fun _ h => keeps_collectLogs h c r
    exact Restores.discarding (hcollect.restores s)
  | downloadLogs name =>
    have hdownload : Quiet w (downloadLogs c name) := quiet_of_asked w fun _ h => keeps_downloadLogs h c name
    exact Restores.discarding (hdownload.restores s)

/-- A world of empty files where `a` has them, `b` has not, and copies fail. -/
def copiesFail : World Unit where
  answer r u := (match r with
    | .file (.readBytes _) => .ok .empty
    | .shell (.exec host ..) =>
      .after .zero (.ok { exitCode := some 0, stdout := if host = "a" then Digest.digest .empty else "", stderr := "" })
    | .shell (.copyTo ..) => .error (.timeout .zero)
    | r => r.unanswered, u)

/-- The session of `a` and `b`. -/
def boundToTwo : Run Session Unit := ⟨{ hosts := ["a", "b"], ids := [("b", "i-b"), ("a", "i-a")] }, (), []⟩

/-- A file is to be copied to `b` in vain. -/
def copyInVain : Operation := .syncFile "app.zip" "app.zip"

theorem hosts_survive_copy_in_vain : ∃ e t, (copyInVain.perform {} {}).run copiesFail boundToTwo = (.failed e, t)
    ∧ aims t.history = [["b"], ["a", "b"]] ∧ t.own.hosts = ["a", "b"] := by
  obtain ⟨new, htrail, hback⟩ := (hosts_survive copiesFail {} {} boundToTwo).1 copyInVain rfl
  have hfailed : (match (copyInVain.perform {} {}).run copiesFail boundToTwo with
      | (.failed _, t) => aims t.history == [["b"], ["a", "b"]]
      | _ => false) = true := by decide +kernel
  cases hr : (copyInVain.perform {} {}).run copiesFail boundToTwo with
  | mk ending t =>
    rw [hr] at hfailed hback
    cases ending with
    | failed e => exact ⟨e, t, rfl, beq_iff_eq.mp hfailed, (hback nofun).1⟩
    | _ => cases hfailed

end CloudFleet.Bench
