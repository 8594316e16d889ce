import CloudFleet.Proofs.Fleet.Reachability
import Mathlib.Data.List.Induction

/-!
# Addresses of reachable instances

A flag goes up only by a confirmation (`exists_confirmed_of_reachable`), and every confirmation follows a probe of the
address that the instance had then (`Earns`): that is its most recent successful probe (`LastProbe`). No change but a
record of the instance gives it an address (`address_replay`), and a record leaves the flag of an instance up that runs
before and after, whatever address it tells. So at every moment of every run a reachable instance has the address of its
most recent successful probe exactly if no record came since, or the last one told that address
(`reachable_has_its_probed_address_iff`).
-/

set_option autoImplicit false

namespace CloudFleet

variable {σ : Type}

namespace Fleet

/-! ## Addresses -/

/-- What a change tells of the address of an instance, if anything. -/
def Change.addressTold? (id : InstanceId) : Change → Option (Option String)
  | .loaded record .. => if record.id = id then some (record.address.filter (· != "")) else none
  | _ => none

/-- What records told of the address of an instance, one after the other. -/
def addressesTold (id : InstanceId) (h : List (Happening Fleet)) : List (Option String) :=
  h.filterMap fun happening => match happening with
    | .asked .. => none
    | .changed c => Change.addressTold? id c

@[simp] theorem addressesTold_nil (id : InstanceId) : addressesTold id [] = [] := rfl

@[simp] theorem addressesTold_append (id : InstanceId) (h k : List (Happening Fleet)) :
    addressesTold id (h ++ k) = addressesTold id h ++ addressesTold id k := List.filterMap_append

@[simp] theorem addressesTold_asked (id : InstanceId) (r : Request) (reply : r.Reply) (h : List (Happening Fleet)) :
    addressesTold id (.asked r reply :: h) = addressesTold id h := rfl

theorem addressesTold_changed (id : InstanceId) (c : Change) (h : List (Happening Fleet)) :
    addressesTold id (.changed c :: h) = (c.addressTold? id).toList ++ addressesTold id h := by
  rw [addressesTold, List.filterMap_cons]
  dsimp only
  cases Change.addressTold? id c <;> rfl

/-- An update that tells nothing of addresses, or tells one to its own instance. -/
theorem address_update {f : Fleet} {id : InstanceId} {i : Instance} (hi : f.get? id = some i) (other : InstanceId)
    {g : Instance → Instance} (hid : ∀ i, (g i).id = i.id) :
    ∃ j, (f.update other g).get? id = some j ∧ j.address = if other = id then (g i).address else i.address := by
  refine ⟨if i.id = other then g i else i, ?_, ?_⟩
  · rw [update, get?_map f (fun j => by split <;> simp [hid]), hi]
    rfl
  · rw [(mem_of_get? hi).2]
    by_cases h : other = id
    · rw [if_pos h, if_pos h.symm]
    · rw [if_neg h, if_neg (Ne.symm h)]

/-- A known instance has the address that the change tells, or keeps the one it has. -/
theorem address_apply {f : Fleet} {id : InstanceId} {i : Instance} (hi : f.get? id = some i) (c : Change) :
    ∃ j, (f.apply c).get? id = some j ∧ j.address = (c.addressTold? id).getD i.address := by
  cases c with
  | added other region state =>
    refine ⟨i, ?_, rfl⟩
    rw [get?, instances_added, List.find?_append, show f.instances.find? _ = some i from hi]
    rfl
  | loaded record state status =>
    obtain ⟨j, hj, haddress⟩ := address_update hi record.id (g := fun i => i.load record state status)
      fun _ => rfl
    refine ⟨j, hj, haddress.trans ?_⟩
    by_cases h : record.id = id
    · simp [Change.addressTold?, h, Instance.load, Instance.enter]
    · simp [Change.addressTold?, h]
  | entered other state =>
    obtain ⟨j, hj, haddress⟩ := address_update hi other (g := fun i => i.enter state) fun _ => rfl
    exact ⟨j, hj, haddress.trans (ite_self _)⟩
  | confirmed other =>
    obtain ⟨j, hj, haddress⟩ := address_update hi other (g := Instance.confirm) fun _ => rfl
    exact ⟨j, hj, haddress.trans (ite_self _)⟩
  | imageFound region image => exact ⟨i, hi, rfl⟩

/-- A known instance has the address that was told last, or the one it had. -/
theorem address_replay (h : List (Happening Fleet)) {f : Fleet} {id : InstanceId} {i : Instance}
    (hi : f.get? id = some i) :
    ∃ j, (replay f h).get? id = some j ∧ j.address = (addressesTold id h).getLast?.getD i.address := by
  induction h generalizing f i with
  | nil => exact ⟨i, hi, rfl⟩
  | cons happening h ih =>
    cases happening with
    | asked r reply => exact ih hi
    | changed c =>
      obtain ⟨j, hj, haddress⟩ := address_apply hi c
      obtain ⟨k, hk, hlast⟩ := ih hj
      refine ⟨k, hk, hlast.trans ?_⟩
      rw [haddress, addressesTold_changed]
      cases Change.addressTold? id c <;> simp [List.getLast?_cons]

/-! ## Flags -/

/-- A flag that a change leaves up was up before, unless the change is the confirmation of its instance. -/
theorem reachable_before {f : Fleet} {c : Change} {i : Instance} (hi : i ∈ (f.apply c).instances)
    (hr : i.reachable = true) (hc : c ≠ .confirmed i.id) : ∃ j ∈ f.instances, j.id = i.id ∧ j.reachable = true := by
  have hupdate : ∀ (id : InstanceId) (state : InstanceState) (g : Instance → Instance), Sets state g →
      i ∈ (f.update id g).instances → ∃ j ∈ f.instances, j.id = i.id ∧ j.reachable = true := by
    intro id state g hg hi
    obtain ⟨j, hj, rfl⟩ := List.mem_map.mp hi
    by_cases hji : j.id = id
    · rw [if_pos hji] at hr ⊢
      exact ⟨j, hj, (hg.id_eq j).symm, (hg.flag j hr).1⟩
    · rw [if_neg hji] at hr ⊢
      exact ⟨j, hj, rfl, hr⟩
  cases c with
  | added id region state =>
    rcases List.mem_append.mp (instances_added f id region state ▸ hi) with hi | hi
    · exact ⟨i, hi, rfl, hr⟩
    · rw [List.mem_singleton.mp hi] at hr
      cases hr
  | loaded record state status => exact hupdate record.id state _ (sets_load record state status) hi
  | entered id state => exact hupdate id state _ (sets_enter state) hi
  | confirmed id =>
    rcases reachable_confirmed hi hr with ⟨hi, -⟩ | ⟨hid, -⟩
    · exact ⟨i, hi, rfl, hr⟩
    · exact absurd (congrArg Change.confirmed hid.symm) hc
  | imageFound region image => exact ⟨i, hi, rfl, hr⟩

/-- An instance whose flag is up was confirmed, the last time some time ago. -/
theorem exists_confirmed_of_reachable {h : List (Happening Fleet)} {i : Instance} (hi : i ∈ (replay {} h).instances)
    (hr : i.reachable = true) : ∃ before since, h = before ++ .changed (Change.confirmed i.id) :: since
      ∧ .changed (Change.confirmed i.id) ∉ since := by
  induction h using List.reverseRecOn generalizing i with
  | nil => cases hi
  | append_singleton h happening ih =>
    rw [replay_append] at hi
    -- the flag was up before this happening, and the last confirmation is the one before it
    have hearlier : ∀ j ∈ (replay {} h : Fleet).instances, j.id = i.id → j.reachable = true →
        happening ≠ .changed (Change.confirmed i.id) →
        ∃ before since, h ++ [happening] = before ++ .changed (Change.confirmed i.id) :: since
          ∧ .changed (Change.confirmed i.id) ∉ since := by
      intro j hj hid hjr hne
      obtain ⟨before, since, rfl, hnone⟩ := ih hj hjr
      rw [hid] at hnone
      refine ⟨before, since ++ [happening], by rw [hid, List.append_assoc, List.cons_append], fun hm => ?_⟩
      rcases List.mem_append.mp hm with hm | hm
      · exact hnone hm
      · exact hne (List.mem_singleton.mp hm).symm
    cases happening with
    | asked r reply => exact hearlier i hi rfl hr (by simp)
    | changed c =>
      by_cases hc : c = .confirmed i.id
      · exact ⟨h, [], by rw [hc], by simp⟩
      · obtain ⟨j, hj, hid, hjr⟩ := reachable_before hi hr hc
        exact hearlier j hj hid hjr fun he => hc (Happening.changed.inj he)

/-! ## Most recent probes -/

/-- Nothing changed but that instances were confirmed. -/
def OnlyConfirmed (h : List (Happening Fleet)) : Prop := ∀ c, .changed c ∈ h → ∃ id, c = Change.confirmed id

/-- The instance ran at the address when this answered a probe, and nothing changed since but by confirmations. -/
def Earns (past : List (Happening Fleet)) (id : InstanceId) (address : String) : Prop :=
  ∃ before sweep port limit, past = before ++ .asked (.probe address port limit) .opened :: sweep
    ∧ OnlyConfirmed sweep ∧ ∃ i, (replay {} before).get? id = some i ∧ i.state = .running ∧ i.address = some address

/-- The most recent successful probe of the instance was one of this address, and led to its confirmation. -/
def LastProbe (past : List (Happening Fleet)) (id : InstanceId) (address : String)
    (since : List (Happening Fleet)) : Prop :=
  ∃ before, past = before ++ .changed (Change.confirmed id) :: since ∧ .changed (Change.confirmed id) ∉ since
    ∧ Earns before id address

/-- No record of the instance came, or the last one told this address. -/
def LastTold (id : InstanceId) (since : List (Happening Fleet)) (address : String) : Prop :=
  ∀ told ∈ (addressesTold id since).getLast?, told = some address

/-- Every reachable instance has the address of its most recent successful probe. -/
def AddressesProbed (past : List (Happening Fleet)) : Prop :=
  ∀ i ∈ (replay {} past : Fleet).instances, i.reachable = true →
    ∃ address since, LastProbe past i.id address since ∧ i.address = some address

theorem OnlyConfirmed.addressesTold_eq {h : List (Happening Fleet)} (hh : OnlyConfirmed h) (id : InstanceId) :
    addressesTold id h = [] := by
  refine List.filterMap_eq_nil_iff.mpr fun happening hm => ?_
  cases happening with
  | asked r reply => rfl
  | changed c =>
    obtain ⟨other, rfl⟩ := hh c hm
    rfl

/-- Who has earned a confirmation still has the address that was probed. -/
theorem Earns.address {past : List (Happening Fleet)} {id : InstanceId} {address : String}
    (h : Earns past id address) : ∃ i, (replay {} past).get? id = some i ∧ i.address = some address := by
  obtain ⟨before, sweep, port, limit, rfl, hsweep, i, hi, -, haddress⟩ := h
  obtain ⟨j, hj, htold⟩ := address_replay (.asked (.probe address port limit) .opened :: sweep) hi
  rw [addressesTold_asked, hsweep.addressesTold_eq] at htold
  exact ⟨j, by rw [replay_append]; exact hj, htold.trans haddress⟩

theorem Earns.concat {past : List (Happening Fleet)} {id : InstanceId} {address : String} (h : Earns past id address)
    (other : InstanceId) : Earns (past ++ [.changed (Change.confirmed other)]) id address := by
  obtain ⟨before, sweep, port, limit, rfl, hsweep, hi⟩ := h
  refine ⟨before, sweep ++ [.changed (Change.confirmed other)], port, limit, ?_, fun c hm => ?_, hi⟩
  · rw [List.append_assoc, List.cons_append]
  · rcases List.mem_append.mp hm with hm | hm
    · exact hsweep c hm
    · exact ⟨other, Happening.changed.inj (List.mem_singleton.mp hm)⟩

/-- An instance that ran while nothing but requests were made earns a confirmation by an answer of its address. -/
theorem earns_of_answered {past new : List (Happening Fleet)} (hnew : OnlyAsked new) {i : Instance} {address : String}
    (hi : (replay {} past).get? i.id = some i) (hrun : i.state = .running) (haddress : i.address = some address)
    (ha : Answered address new) : Earns (past ++ new) i.id address := by
  obtain ⟨port, limit, hm⟩ := ha
  obtain ⟨first, later, rfl⟩ := List.append_of_mem hm
  have hfirst : OnlyAsked first := fun c hc => hnew c (List.mem_append_left _ hc)
  refine ⟨past ++ first, later, port, limit, by rw [List.append_assoc], fun c hc => ?_, i, ?_, hrun, haddress⟩
  · exact absurd (List.mem_append_right _ (List.mem_cons_of_mem _ hc)) (hnew c)
  · rw [replay_append, hfirst.replay_eq]
    exact hi

namespace LastProbe

variable {past since : List (Happening Fleet)} {id : InstanceId} {address : String}

/-- The instance has the address that was told last since its most recent successful probe, or the one that was
probed. -/
theorem address_eq (h : LastProbe past id address since) :
    ∃ i, (replay {} past).get? id = some i ∧ i.address = (addressesTold id since).getLast?.getD (some address) := by
  obtain ⟨before, rfl, -, hearns⟩ := h
  obtain ⟨i, hi, haddress⟩ := hearns.address
  obtain ⟨j, hj, htold⟩ := address_replay (.changed (Change.confirmed id) :: since) hi
  rw [addressesTold_changed, haddress] at htold
  exact ⟨j, by rw [replay_append]; exact hj, htold⟩

/-- The instance has the address that was probed exactly if this was told last. -/
theorem address_iff (h : LastProbe past id address since) {i : Instance} (hi : (replay {} past).get? id = some i) :
    i.address = some address ↔ LastTold id since address := by
  obtain ⟨j, hj, htold⟩ := h.address_eq
  rw [hi] at hj
  obtain rfl := Option.some.inj hj
  rw [htold, LastTold]
  cases (addressesTold id since).getLast? <;> simp

/-- The address answered. -/
theorem answered (h : LastProbe past id address since) : Answered address past := by
  obtain ⟨before, rfl, -, before', sweep, port, limit, rfl, -⟩ := h
  exact ⟨port, limit, by simp⟩

/-- There is one most recent successful probe. -/
theorem unique (h : LastProbe past id address since) {other : String} {later : List (Happening Fleet)}
    (h' : LastProbe past id other later) : other = address ∧ later = since := by
  obtain ⟨before, rfl, hnone, hearns⟩ := h
  obtain ⟨before', hsplit, hnone', hearns'⟩ := h'
  -- neither confirmation is after the other one
  obtain ⟨rfl, rfl⟩ : before = before' ∧ since = later := by
    rcases List.append_eq_append_iff.mp hsplit with ⟨more, rfl, hrest⟩ | ⟨more, rfl, hrest⟩
    all_goals
      cases more with
      | nil => exact ⟨by simp, by simpa [eq_comm] using hrest⟩
      | cons _ more =>
        obtain ⟨-, rfl⟩ := List.cons.inj hrest
        simp at hnone hnone'
  obtain ⟨i, hi, haddress⟩ := hearns.address
  obtain ⟨j, hj, haddress'⟩ := hearns'.address
  rw [hi] at hj
  obtain rfl := Option.some.inj hj
  exact ⟨Option.some.inj (haddress'.symm.trans haddress), rfl⟩

end LastProbe

/-! ## Runs -/

/-- Every confirmation in the history was earned. -/
def Earned (h : List (Happening Fleet)) : Prop :=
  ∀ before id since, h = before ++ .changed (Change.confirmed id) :: since → ∃ address, Earns before id address

namespace Earned

variable {h : List (Happening Fleet)}

theorem nil : Earned [] := fun before id since hsplit => by simp at hsplit

theorem concat (hh : Earned h) {happening : Happening Fleet}
    (hnew : ∀ id, happening = .changed (Change.confirmed id) → ∃ address, Earns h id address) :
    Earned (h ++ [happening]) := by
  intro before id since hsplit
  rcases List.eq_nil_or_concat since with rfl | ⟨since, last, rfl⟩
  · obtain ⟨rfl, he⟩ := List.append_inj' hsplit rfl
    exact hnew id (List.singleton_inj.mp he)
  · rw [List.concat_eq_append, ← List.cons_append, ← List.append_assoc] at hsplit
    exact hh before id since (List.append_inj' hsplit rfl).1

theorem asked (hh : Earned h) {new : List (Happening Fleet)} (hnew : OnlyAsked new) : Earned (h ++ new) := by
  induction new generalizing h with
  | nil => simpa using hh
  | cons happening new ih =>
    cases happening with
    | asked r reply =>
      have hone : Earned (h ++ [.asked r reply]) := hh.concat (by simp)
      have := ih hone fun c hc => hnew c (List.mem_cons_of_mem _ hc)
      rwa [List.append_assoc] at this
    | changed c => exact absurd List.mem_cons_self (hnew c)

/-- Who has earned it may be confirmed, one after the other. -/
theorem confirmAll (ids : List InstanceId) {t : Run Fleet σ} (ht : Earned t.history)
    (hids : ∀ id ∈ ids, ∃ address, Earns t.history id address) : Earned (confirmAll t ids).history := by
  induction ids generalizing t with
  | nil => exact ht
  | cons id ids ih =>
    refine ih (t := t.change (Change.confirmed id)) (ht.concat fun k hk => ?_) fun k hk => ?_
    · cases hk
      exact hids _ List.mem_cons_self
    · obtain ⟨address, hearns⟩ := hids k (List.mem_cons_of_mem _ hk)
      exact ⟨address, hearns.concat id⟩

end Earned

/-- All is remembered as it happened, and every confirmation was earned. -/
structure Attested (s : Run Fleet σ) : Prop where
  watched : Watched s
  earned : Earned s.history

namespace Attested

variable {s : Run Fleet σ}

theorem fresh (world : σ) : Attested (Fleet.fresh world) := ⟨.fresh world, .nil⟩

theorem ask (w : World σ) (hs : Attested s) {r : Request} (hr : r.discovery? = none) : Attested (s.ask w r) :=
  ⟨hs.watched.ask w hr, hs.earned.concat (by simp)⟩

/-- Probing confirms only who has earned it. -/
theorem probeRunning (w : World σ) (c : FleetConfig) (groups : List Group) :
    Program.Keeps w Attested (Fleet.probeRunning c groups : FleetProgram Unit) := by
  intro s hs
  have hwatched := watched_probeRunning w c groups s hs.watched
  obtain ⟨connections, t, new, hr, -, ha, hq⟩ := run_probeRunning (ε := FleetError) w c groups s
  rw [hr] at hwatched ⊢
  refine ⟨hwatched, .confirmAll _ ?_ fun id hid => ?_⟩
  · rw [ha.history]
    exact hs.earned.asked ha.asked
  · obtain ⟨⟨id, address⟩, hx, rfl⟩ := List.mem_map.mp hid
    obtain ⟨hm, hanswered⟩ := answered_of_mem_answering ha.history hq hx
    obtain ⟨i, hi, rfl, hrun, haddress, -⟩ := mem_candidates_iff.mp hm
    obtain ⟨x, -, hshow⟩ := hs.watched.inStep.index
    have hget := get?_of_mem hshow.ids_nodup hi
    rw [hs.watched.own_eq] at hget
    rw [ha.history]
    exact ⟨address, earns_of_answered ha.asked hget hrun haddress hanswered⟩

theorem stable (w : World σ) : Stable w Attested where
  asked _ _ hr _ hs := hs.ask w hr
  observed region o s hs := by
    have hwatched := (stable_watched w).observed region o s hs.watched
    rw [run_observe] at hwatched ⊢
    refine ⟨hwatched, Earned.concat ?_ fun id he => by cases he⟩
    -- announcing and adding an instance confirms nobody
    by_cases hk : s.own.knows o.record.id = true
    · rw [listed_of_knows w region hk]
      exact hs.earned
    · rw [listed_of_not_knows w region hk]
      exact (hs.earned.concat (by simp)).concat fun id he => by cases he
  moved s id kind hs := ⟨(stable_watched w).moved s id kind hs.watched, hs.earned.concat fun id he => by cases he⟩
  probed := probeRunning w
  imaged s region image hs :=
    ⟨(stable_watched w).imaged s region image hs.watched, hs.earned.concat fun id he => by cases he⟩

theorem runAll (w : World σ) (c : FleetConfig) (world : σ) (os : List (Nat × Operation)) :
    Attested (Fleet.runAll w c (Fleet.fresh world) os) :=
  (stable w).runAll (fun _ _ hr hs => hs.ask w (Request.discovery?_of_commits hr)) c os (.fresh world)

end Attested

/-- At every moment a reachable instance has a most recent successful probe. -/
theorem Earned.lastProbe {h past : List (Happening Fleet)} (hh : Earned h) (hp : past <+: h) {i : Instance}
    (hi : i ∈ (replay {} past : Fleet).instances) (hr : i.reachable = true) :
    ∃ address since, LastProbe past i.id address since := by
  obtain ⟨before, since, rfl, hnone⟩ := exists_confirmed_of_reachable hi hr
  obtain ⟨more, rfl⟩ := hp
  obtain ⟨address, hearns⟩ := hh before i.id (since ++ more) (by rw [List.append_assoc, List.cons_append])
  exact ⟨address, since, before, rfl, hnone, hearns⟩

/-- What a fleet remembers after any operations, however they end, is the replay of all that happened. At every moment
each reachable instance has a most recent successful probe, and all of them have the addresses of these probes exactly
if the records that came since, if any, told at last what was probed. -/
theorem reachable_has_its_probed_address_iff (w : World σ) (c : FleetConfig) (world : σ) (os : List (Nat × Operation)) :
    (runAll w c (fresh world) os).own = replay {} (runAll w c (fresh world) os).history
    ∧ ∀ past, past <+: (runAll w c (fresh world) os).history →
        (∀ i ∈ (replay {} past : Fleet).instances, i.reachable = true →
          ∃ address since, LastProbe past i.id address since)
        ∧ (AddressesProbed past ↔ ∀ i ∈ (replay {} past : Fleet).instances, i.reachable = true →
          ∀ address since, LastProbe past i.id address since → LastTold i.id since address) := by
  have hattested := Attested.runAll w c world os
  refine ⟨hattested.watched.own_eq, fun past hp => ?_⟩
  have hprobe := fun i => hattested.earned.lastProbe hp (i := i)
  have hn := ids_nodup_of_prefix hattested.watched.inStep hattested.watched.own_eq hp
  have hget : ∀ i ∈ (replay {} past : Fleet).instances, (replay {} past : Fleet).get? i.id = some i := fun i hi =>
    get?_of_mem hn hi
  refine ⟨fun i hi hr => hprobe i hi hr, fun hall i hi hr address since hlast => ?_, fun hall i hi hr => ?_⟩
  · obtain ⟨other, later, hlast', haddress⟩ := hall i hi hr
    obtain ⟨rfl, rfl⟩ := hlast.unique hlast'
    exact (hlast'.address_iff (hget i hi)).mp haddress
  · obtain ⟨address, since, hlast⟩ := hprobe i hi hr
    exact ⟨address, since, hlast, (hlast.address_iff (hget i hi)).mpr (hall i hi hr address since hlast)⟩

/-! ## A cloud that moves an instance to other addresses -/

/-- The addresses that were probed, one after the other. -/
def addressesAsked (h : List (Happening Fleet)) : List String :=
  (requests h).filterMap fun r => match r with
    | .probe address .. => some address
    | _ => none

theorem Answered.mem_addressesAsked {address : String} {h : List (Happening Fleet)} (ha : Answered address h) :
    address ∈ addressesAsked h := by
  obtain ⟨port, limit, hm⟩ := ha
  refine List.mem_filterMap.mpr ⟨.probe address port limit, List.mem_map.mpr ⟨⟨_, Connection.opened⟩, ?_, rfl⟩, rfl⟩
  exact List.mem_filterMap.mpr ⟨_, hm, rfl⟩

/-- A cloud whose only instance runs, and answers at every address. It is described with an address, then without any,
and from then on with another one. -/
def wanderingCloud : World Nat where
  answer
    | .cloud (.describeInstances ..), n =>
      (.ok [⟨"i-1", if n = 0 then some "host-1" else if n = 1 then none else some "host-2", "running"⟩], n + 1)
    | .cloud (.describeStatuses ..), n => (.ok [], n)
    | .probe .., n => (.opened, n)
    | r, n => (r.unanswered, n)

/-- The fleet after a number of refreshes. -/
def wandering (refreshes : Nat) : Run Fleet Nat :=
  runAll wanderingCloud { regions := [⟨"eu-west-3"⟩] } (fresh 0) (List.replicate refreshes (0, .refresh .all))

/-- The instance, running and reachable, with an address or none. -/
def wanderer (address : Option String) : Instance := ⟨"i-1", ⟨"eu-west-3"⟩, address, .running, true, none⟩

theorem own_wandering (refreshes : Nat) : (wandering refreshes).own = replay {} (wandering refreshes).history :=
  (watched_runAll wanderingCloud _ 0 _).own_eq

/-- After one refresh the instance is reachable at the address that was probed. -/
theorem reachable_has_its_probed_address_iff_once :
    (wandering 1).own.instances = [wanderer (some "host-1")] ∧ AddressesProbed (wandering 1).history := by
  have hlisted : (wandering 1).own.instances = [wanderer (some "host-1")] := by decide +kernel
  have hasked : addressesAsked (wandering 1).history = ["host-1"] := by decide +kernel
  obtain ⟨-, hall⟩ := reachable_has_its_probed_address_iff wanderingCloud { regions := [⟨"eu-west-3"⟩] } 0
    (List.replicate 1 (0, .refresh .all))
  refine ⟨hlisted, (hall (wandering 1).history (List.prefix_refl _)).2.mpr fun i hi _ address since hlast => ?_⟩
  have haddress := hlast.answered.mem_addressesAsked
  rw [hasked, List.mem_singleton] at haddress
  rw [← own_wandering, hlisted, List.mem_singleton] at hi
  have hget : (wandering 1).own.get? "i-1" = some (wanderer (some "host-1")) := by decide +kernel
  rw [own_wandering] at hget
  rw [hi, haddress] at hlast ⊢
  exact (hlast.address_iff hget).mp rfl

/-- A reachable instance that has none of the addresses that were probed. -/
theorem not_addressesProbed {past : List (Happening Fleet)} {i : Instance} (hi : i ∈ (replay {} past : Fleet).instances)
    (hr : i.reachable = true) (hnone : ∀ address ∈ addressesAsked past, i.address ≠ some address) :
    ¬AddressesProbed past := by
  intro hall
  obtain ⟨address, since, hlast, haddress⟩ := hall i hi hr
  exact hnone address hlast.answered.mem_addressesAsked haddress

/-- After another refresh the instance is still reachable, without an address, and after a third one with an address
that nobody probed. -/
theorem reachable_without_its_probed_address :
    ((wandering 2).own.instances = [wanderer none] ∧ ¬AddressesProbed (wandering 2).history)
    ∧ (wandering 3).own.instances = [wanderer (some "host-2")] ∧ ¬AddressesProbed (wandering 3).history := by
  have hlisted : (wandering 2).own.instances = [wanderer none] := by decide +kernel
  have hlisted' : (wandering 3).own.instances = [wanderer (some "host-2")] := by decide +kernel
  have hasked : addressesAsked (wandering 3).history = ["host-1"] := by decide +kernel
  refine ⟨⟨hlisted, not_addressesProbed (i := wanderer none) ?_ rfl fun address _ => by simp [wanderer]⟩, hlisted',
    not_addressesProbed (i := wanderer (some "host-2")) ?_ rfl fun address ha => ?_⟩
  · rw [← own_wandering, hlisted]
    exact List.mem_singleton_self _
  · rw [← own_wandering, hlisted']
    exact List.mem_singleton_self _
  · rw [hasked, List.mem_singleton] at ha
    rw [ha]
    decide

end Fleet

end CloudFleet
