import CloudFleet.Proofs.Bench.Repair
import CloudFleet.World.Inert

/-!
# Updates one after the other

A `Delivery` is an update of the payload, with the local files as they are then; `deliverAll` makes deliveries one
after the other, however each of them ends. A host gets out of step only in a delivery that fails after the host
received a file (`interrupted_of_not_inStep`). A later delivery that returns leaves all archives on it, but unpacks
them only if one was lacking: a host that got all of them from deliveries that failed is left with what it had
unpacked before. `delivered_inStep_iff` says exactly when an update that returns leaves every bound host in step.
-/

set_option autoImplicit false

namespace CloudFleet.Bench

variable {σ : Type}

open Program (Ensures Keeps)

/-- An update: the fleet whose nodes are listed, and the local files. -/
structure Delivery where
  fleet : Fleet
  contents : Path → ByteArray

/-- The run with the local files of a delivery. -/
def Delivery.prepare (d : Delivery) (s : Run Session (Depot σ)) : Run Session (Depot σ) :=
  { s with world := { s.world with contents := d.contents } }

/-- An update of the payload, without unpacking everywhere. -/
def deliver (fc : FleetConfig) (c : BenchConfig) (w : World σ) (s : Run Session (Depot σ)) (d : Delivery) :
    Ending Report PayloadUpdate × Run Session (Depot σ) :=
  (updatePayload fc c d.fleet false).run (depot c w) (d.prepare s)

/-- Updates one after the other; none if one of them does not come to an end. -/
def deliverAll (fc : FleetConfig) (c : BenchConfig) (w : World σ) (s : Run Session (Depot σ)) :
    List Delivery → Option (Run Session (Depot σ))
  | [] => some s
  | d :: ds =>
    match deliver fc c w s d with
    | (.returned _, t) => deliverAll fc c w t ds
    | (.failed _, t) => deliverAll fc c w t ds
    | _ => none

/-- A host received a file. -/
def Received (host : String) (h : List (Happening Session)) : Prop :=
  ∃ localPath remote, Happening.asked (.shell (.copyTo host localPath remote)) (.ok ()) ∈ h

/-- One of the updates failed after the host received a file in it. -/
def Interrupted (fc : FleetConfig) (c : BenchConfig) (w : World σ) (s : Run Session (Depot σ)) (ds : List Delivery)
    (host : String) : Prop :=
  ∃ before d after t e u new, ds = before ++ d :: after ∧ deliverAll fc c w s before = some t
    ∧ deliver fc c w t d = (.failed e, u) ∧ u.history = t.history ++ new ∧ Received host new

/-! ## Getting out of step -/

theorem inStep_receive {c : BenchConfig} {d : Disks} {host other remote : String} (bytes : ByteArray)
    (h : d.InStep c host) (hne : host ≠ other) : (d.receive other remote bytes).InStep c host := by
  intro archive ha
  rw [Disks.digest?, Disks.receive]
  dsimp only
  rw [if_neg fun he => hne he.1]
  exact h archive ha

theorem inStep_unpack {c : BenchConfig} {d : Disks} {host : String} (h : d.InStep c host) (other : String) :
    (d.unpack other).InStep c host := by
  intro archive ha
  rw [Disks.digest?, Disks.unpack]
  dsimp only
  split
  · rfl
  · exact h archive ha

section Runs

variable {c : BenchConfig} {w : World σ}

/-- A request leaves a host in step, or a file was received. -/
theorem inStep_ask {t : Run Session (Depot σ)} {host : String} (h : t.world.disks.InStep c host) (r : Request) :
    (t.ask (depot c w) r).world.disks.InStep c host ∨ Received host [.asked r (t.reply (depot c w) r)] := by
  cases hr : r.remote with
  | false =>
    rw [disks_ask t hr]
    exact Or.inl h
  | true =>
    cases r with
    | shell call =>
      cases call with
      | copyTo other localPath remote =>
        cases hreply : t.reply (depot c w) (.shell (.copyTo other localPath remote)) with
        | error e =>
          rw [disks_copyTo_error t hreply]
          exact Or.inl h
        | ok _ =>
          rw [disks_copyTo t hreply]
          by_cases he : host = other
          · subst he
            exact Or.inr ⟨localPath, remote, List.mem_cons_self⟩
          · exact Or.inl (inStep_receive _ h he)
      | exec other command pty =>
        left
        show (if _ then t.world.disks.unpack other else t.world.disks).InStep c host
        split
        · exact inStep_unpack h other
        · exact h
      | _ => exact Or.inl h
    | _ => cases hr

/-- Whatever a program does, a host in step stays so, or received a file. -/
theorem inStep_or_received {ε α : Type} (p : Program Session ε α) {s : Run Session (Depot σ)} {host : String}
    (h : s.world.disks.InStep c host) :
    ∃ new, (p.run (depot c w) s).2.history = s.history ++ new
      ∧ ((p.run (depot c w) s).2.world.disks.InStep c host ∨ Received host new) := by
  refine Program.grows_of_steps (I := fun new (t : Run Session (Depot σ)) =>
    t.world.disks.InStep c host ∨ Received host new) ?_ ?_ p (Or.inl h)
  · intro r new t ht
    rcases ht with ht | ⟨localPath, remote, hm⟩
    · rcases inStep_ask (w := w) ht r with hin | ⟨localPath, remote, hm⟩
      · exact Or.inl hin
      · exact Or.inr ⟨localPath, remote, List.mem_append_right _ hm⟩
    · exact Or.inr ⟨localPath, remote, List.mem_append_left _ hm⟩
  · intro change new t ht
    rcases ht with ht | ⟨localPath, remote, hm⟩
    · exact Or.inl ht
    · exact Or.inr ⟨localPath, remote, List.mem_append_left _ hm⟩

/-! ## Deliveries -/

/-- An update that returns is what an update ensures. -/
theorem deliver_returned {fc : FleetConfig} {s u : Run Session (Depot σ)} {d : Delivery} {r : PayloadUpdate}
    (h : deliver fc c w s d = (.returned r, u)) :
    u.own = s.own ∧ Updated c s.own.hosts (d.prepare s).world u.world :=
  (updatePayload_ensures (s := d.prepare s) fc d.fleet).of_returned h

theorem deliver_failed {fc : FleetConfig} {s u : Run Session (Depot σ)} {d : Delivery} {e : Report}
    (h : deliver fc c w s d = (.failed e, u)) : u.own = s.own :=
  (updatePayload_ensures (c := c) (w := w) (s := d.prepare s) fc d.fleet).of_failed h

theorem deliverAll_returned {fc : FleetConfig} {s u : Run Session (Depot σ)} {d : Delivery} {r : PayloadUpdate}
    (h : deliver fc c w s d = (.returned r, u)) (ds : List Delivery) :
    deliverAll fc c w s (d :: ds) = deliverAll fc c w u ds := by
  rw [deliverAll, h]

theorem deliverAll_failed {fc : FleetConfig} {s u : Run Session (Depot σ)} {d : Delivery} {e : Report}
    (h : deliver fc c w s d = (.failed e, u)) (ds : List Delivery) :
    deliverAll fc c w s (d :: ds) = deliverAll fc c w u ds := by
  rw [deliverAll, h]

theorem Interrupted.cons {fc : FleetConfig} {s u : Run Session (Depot σ)} {d : Delivery} {ds : List Delivery}
    {host : String} (hskip : ∀ ds, deliverAll fc c w s (d :: ds) = deliverAll fc c w u ds)
    (h : Interrupted fc c w u ds host) : Interrupted fc c w s (d :: ds) host := by
  obtain ⟨before, d', after, t, e, v, new, rfl, ht, hv, hnew, hreceived⟩ := h
  exact ⟨d :: before, d', after, t, e, v, new, rfl, (hskip before).trans ht, hv, hnew, hreceived⟩

/-- An update that returns leaves a bound host in step exactly if it was, or lacked an archive. -/
theorem Updated.inStep_iff {hosts : List String} {d e : Depot σ} (h : Updated c hosts d e) {host : String}
    (hhost : host ∈ hosts) : e.disks.InStep c host ↔
      d.disks.InStep c host ∨ ∃ archive ∈ c.archives, Lacks c d.contents d.disks host archive := by
  by_cases hl : ∃ archive ∈ c.archives, Lacks c d.contents d.disks host archive
  · -- a host that lacked an archive got a copy and unpacked, whatever it had unpacked before
    obtain ⟨archive, ha, hlacks⟩ := hl
    exact ⟨fun _ => Or.inr ⟨archive, ha, hlacks⟩, fun _ => h.repaired host hhost archive ha hlacks⟩
  · have hnone : ∀ archive ∈ c.archives, ¬Lacks c d.contents d.disks host archive :=
      fun archive ha hlacks => hl ⟨archive, ha, hlacks⟩
    obtain ⟨hstored, hunpacked⟩ := h.spared host hnone
    have hsame : e.disks.InStep c host ↔ d.disks.InStep c host := by
      simp only [Disks.InStep, Disks.digest?, hstored, hunpacked]
    rw [hsame]
    exact ⟨Or.inl, fun hin => hin.resolve_right hl⟩

/-- Deliveries leave the session as it was. -/
theorem own_deliverAll {fc : FleetConfig} {ds : List Delivery} {s t : Run Session (Depot σ)}
    (h : deliverAll fc c w s ds = some t) : t.own = s.own := by
  induction ds generalizing s with
  | nil =>
    cases h
    rfl
  | cons d ds ih =>
    rw [deliverAll] at h
    split at h
    · rename_i hd
      exact (ih h).trans (deliver_returned hd).1
    · rename_i hd
      exact (ih h).trans (deliver_failed hd)
    · cases h

/-- A bound host gets out of step only in a delivery that fails after it received a file. -/
theorem interrupted_of_not_inStep {fc : FleetConfig} {ds : List Delivery} {s t : Run Session (Depot σ)} {host : String}
    (hhost : host ∈ s.own.hosts) (hs : s.world.disks.InStep c host) (h : deliverAll fc c w s ds = some t)
    (ht : ¬t.world.disks.InStep c host) : Interrupted fc c w s ds host := by
  induction ds generalizing s with
  | nil =>
    cases h
    exact absurd hs ht
  | cons d ds ih =>
    rw [deliverAll] at h
    split at h
    · rename_i r u hd
      obtain ⟨hown, hupdated⟩ := deliver_returned hd
      -- an update that returns leaves a host in step that was so, and the interruption comes later
      have hu : u.world.disks.InStep c host := (hupdated.inStep_iff hhost).mpr (Or.inl hs)
      exact .cons (deliverAll_returned hd) (ih (hown ▸ hhost) hu h)
    · rename_i e u hd
      obtain ⟨new, hnew, hor⟩ := inStep_or_received (w := w) (updatePayload fc c d.fleet false)
        (s := d.prepare s) hs
      rw [show (updatePayload fc c d.fleet false).run (depot c w) (d.prepare s) = (.failed e, u) from hd] at hnew hor
      rcases hor with hu | hreceived
      · exact .cons (deliverAll_failed hd) (ih (deliver_failed hd ▸ hhost) hu h)
      · exact ⟨[], d, ds, s, e, u, new, rfl, rfl, hd, hnew, hreceived⟩
    · cases h

/-- Let all bound hosts be in step, and updates be made, of which the last one returns. Then the local archives lie on
every bound host. All bound hosts are in step again exactly if those that were not before the last update lacked an
archive then; and those that were not received a file in an update that failed. -/
theorem delivered_inStep_iff (fc : FleetConfig) (c : BenchConfig) (w : World σ) (s t u : Run Session (Depot σ))
    (ds : List Delivery) (last : Delivery) (r : PayloadUpdate)
    (hstart : ∀ host ∈ s.own.hosts, s.world.disks.InStep c host) (hds : deliverAll fc c w s ds = some t)
    (hlast : deliver fc c w t last = (.returned r, u)) :
    (∀ host ∈ s.own.hosts, ∀ archive ∈ c.archives, u.world.disks.digest? host (c.remotePath archive)
        = some (Digest.digest (last.contents (Path.join c.payloadDir archive))))
      ∧ ((∀ host ∈ s.own.hosts, u.world.disks.InStep c host) ↔ ∀ host ∈ s.own.hosts,
          t.world.disks.InStep c host ∨ ∃ archive ∈ c.archives, Lacks c last.contents t.world.disks host archive)
      ∧ ∀ host ∈ s.own.hosts, ¬t.world.disks.InStep c host → Interrupted fc c w s ds host := by
  obtain ⟨-, hupdated⟩ := deliver_returned hlast
  rw [own_deliverAll hds] at hupdated
  refine ⟨fun host hhost archive ha => ?_, ?_, fun host hhost ht => ?_⟩
  · exact not_not.mp (hupdated.current host hhost archive ha)
  · exact forall₂_congr fun host hhost => hupdated.inStep_iff hhost
  · exact interrupted_of_not_inStep hhost (hstart host hhost) hds ht

end Runs

/-! ## A copy that fails once -/

/-- A world in which everything succeeds but the first copy to `b`; its state says whether that copy was tried. -/
def refusingOnce : World Bool where
  answer
    | .shell (.copyTo host _ _), tried =>
      if host = "b" ∧ tried = false then (.error (.unreachable host "connection refused"), true) else (.ok (), tried)
    | .shell (.exec ..), tried => (.after .zero (.ok (.ok "")), tried)
    | .file (.readText _), tried => (.ok "", tried)
    | .file (.readBytes _), tried => (.ok .empty, tried)
    | r, tried => (r.unanswered, tried)

/-- One archive, and no program that builds it. -/
def oneArchive : BenchConfig := { packScript := none, archives := ["app.zip"] }

/-- Two hosts on which nothing lies. -/
def twoHosts : Run Session (Depot Bool) :=
  ⟨{ hosts := ["a", "b"] }, ⟨⟨fun _ _ => none, fun _ _ => none⟩, fun _ => .empty, false⟩, []⟩

/-- The archive as it is built now. -/
def build : Delivery := ⟨{}, fun _ => .empty⟩

theorem inStep_twoHosts (host : String) : twoHosts.world.disks.InStep oneArchive host := fun _ _ => rfl

/-- The first update fails for the copy to `b`; the second one returns, and `a` has the archive without having unpacked
it. -/
theorem refused_then_returned : ∃ t u r, deliverAll {} oneArchive refusingOnce twoHosts [build] = some t
    ∧ deliver {} oneArchive refusingOnce t build = (.returned r, u)
    ∧ u.world.disks.unpacked "a" (oneArchive.remotePath "app.zip") = none
    ∧ (u.world.disks.stored "a" (oneArchive.remotePath "app.zip")).isSome = true := by
  have hfirst : (match deliver {} oneArchive refusingOnce twoHosts build with
      | (.failed _, _) => true
      | _ => false) = true := by decide +kernel
  have hsecond : (match deliver {} oneArchive refusingOnce
      (deliver {} oneArchive refusingOnce twoHosts build).2 build with
      | (.returned _, u) => (u.world.disks.unpacked "a" (oneArchive.remotePath "app.zip")).isNone
          && (u.world.disks.stored "a" (oneArchive.remotePath "app.zip")).isSome
      | _ => false) = true := by decide +kernel
  split at hfirst
  · rename_i e t ht
    rw [ht] at hsecond
    split at hsecond
    · rename_i r u hu
      rw [Bool.and_eq_true, Option.isNone_iff_eq_none] at hsecond
      exact ⟨t, u, r, deliverAll_failed ht [], hu, hsecond⟩
    · cases hsecond
  · cases hfirst

theorem delivered_inStep_iff_refused_once : ∃ (t u : Run Session (Depot Bool)) (r : PayloadUpdate),
    deliverAll {} oneArchive refusingOnce twoHosts [build] = some t
      ∧ deliver {} oneArchive refusingOnce t build = (.returned r, u)
      ∧ (∀ host ∈ twoHosts.own.hosts, ∀ archive ∈ oneArchive.archives,
          u.world.disks.digest? host (oneArchive.remotePath archive)
            = some (Digest.digest (build.contents (Path.join oneArchive.payloadDir archive))))
      ∧ ((∀ host ∈ twoHosts.own.hosts, u.world.disks.InStep oneArchive host) ↔ ∀ host ∈ twoHosts.own.hosts,
          t.world.disks.InStep oneArchive host
            ∨ ∃ archive ∈ oneArchive.archives, Lacks oneArchive build.contents t.world.disks host archive)
      ∧ ∀ host ∈ twoHosts.own.hosts, ¬t.world.disks.InStep oneArchive host →
          Interrupted {} oneArchive refusingOnce twoHosts [build] host := by
  obtain ⟨t, u, r, hds, hlast, -⟩ := refused_then_returned
  exact ⟨t, u, r, hds, hlast, delivered_inStep_iff {} oneArchive refusingOnce twoHosts t u [build] build r
    (fun host _ => inStep_twoHosts host) hds hlast⟩

/-- All hosts are in step, one update fails and the next one returns, and not all hosts are in step. -/
theorem delivered_without_unpacking : ¬∀ (t u : Run Session (Depot Bool)) (r : PayloadUpdate),
    (∀ host ∈ twoHosts.own.hosts, twoHosts.world.disks.InStep oneArchive host) →
    deliverAll {} oneArchive refusingOnce twoHosts [build] = some t →
    deliver {} oneArchive refusingOnce t build = (.returned r, u) →
    ∀ host ∈ twoHosts.own.hosts, u.world.disks.InStep oneArchive host := by
  intro h
  obtain ⟨t, u, r, hds, hlast, hnone, hsome⟩ := refused_then_returned
  have ha := h t u r (fun host _ => inStep_twoHosts host) hds hlast "a" List.mem_cons_self "app.zip" List.mem_cons_self
  rw [hnone, Disks.digest?] at ha
  rw [← Option.isSome_map, ← ha] at hsome
  cases hsome

end CloudFleet.Bench
