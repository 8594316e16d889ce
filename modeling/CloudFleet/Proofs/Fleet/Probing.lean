import CloudFleet.Proofs.Fleet.Arrival
import CloudFleet.Proofs.Fleet.Mirroring
import Mathlib.Data.List.Forall2

/-!
# Whom a refresh probes

The instances that are due for a probe (`Due`) belong to a group of the refresh, run, are not confirmed and have an
address. A refresh that gets as far as probing probes exactly those that are due after its descriptions were taken over,
each once and at its own address. It marks each of them by its own connection, and nothing else changes (`Probed`,
`probed_probeRunning`). The probes are matched with the instances by position, so this is where the identifiers being
distinct matters.

Whoever is confirmed stays so as long as the instance runs at every moment (`StaysConfirmed`), and a description
confirms nobody (`Unraised`). Main statement: `probing_is_exact`.
-/

set_option autoImplicit false

namespace CloudFleet

variable {σ ε : Type}

namespace Fleet

open Program (Keeps)

/-! ## Who is due -/

/-- The instance belongs to a group: to one that is all of its region, or that names it. -/
def Belongs (groups : List Group) (i : Instance) : Prop :=
  ∃ group ∈ groups, group.1 = i.region ∧ (group.2 = [] ∨ i.id ∈ group.2)

/-- The instance is to be probed when these groups are refreshed. -/
structure Due (groups : List Group) (i : Instance) : Prop where
  belongs : Belongs groups i
  running : i.state = .running
  unconfirmed : i.reachable = false
  addressed : i.address.isSome = true

section Due

variable {groups : List Group} {i : Instance}

theorem inGroups_iff : inGroups groups i = true ↔ Belongs groups i := by
  simp [inGroups, Belongs]

theorem due_iff : (inGroups groups i && i.state == .running && !i.reachable) = true ∧ i.address.isSome = true
    ↔ Due groups i := by
  simp only [Bool.and_eq_true, inGroups_iff, beq_iff_eq, Bool.not_eq_true']
  constructor
  · rintro ⟨⟨⟨hbelongs, hrun⟩, hflag⟩, haddress⟩
    exact ⟨hbelongs, hrun, hflag, haddress⟩
  · rintro ⟨hbelongs, hrun, hflag, haddress⟩
    exact ⟨⟨⟨hbelongs, hrun⟩, hflag⟩, haddress⟩

instance : Decidable (Due groups i) := decidable_of_iff _ due_iff

/-- Probing an instance that is due confirms it. -/
theorem Due.confirm_eq (h : Due groups i) : i.confirm = { i with reachable := true } := by
  rw [Instance.confirm, Instance.confirmable, h.running, h.addressed]
  rfl

/-- The candidates are the instances that are due, in order, with their addresses. -/
theorem candidates_eq (f : Fleet) (groups : List Group) : f.candidates groups
    = (f.instances.filter fun i => Due groups i).map fun i => (i.id, i.address.getD "") := by
  unfold candidates filter
  induction f.instances with
  | nil => rfl
  | cons i is ih =>
    cases hfirst : (inGroups groups i && i.state == .running && !i.reachable) with
    | false =>
      have hnot : ¬Due groups i := fun h => by
        rw [(due_iff.mpr h).1] at hfirst
        cases hfirst
      rw [List.filter_cons_of_neg (by simp [hfirst]), List.filter_cons_of_neg (by simp [hnot]), ih]
    | true =>
      rw [List.filter_cons, if_pos hfirst, List.filterMap_cons, ih]
      cases haddress : i.address with
      | none =>
        have hnot : ¬Due groups i := fun h => by
          have hsome := h.addressed
          rw [haddress] at hsome
          cases hsome
        rw [List.filter_cons_of_neg (by simp [hnot])]
        rfl
      | some address =>
        have hdue : Due groups i := due_iff.mp ⟨hfirst, by rw [haddress]; rfl⟩
        rw [List.filter_cons_of_pos (by simp [hdue]), List.map_cons, haddress]
        rfl

end Due

/-! ## Probes -/

/-- A probe: of an instance, at an address, with what came of it. -/
structure Probing where
  probed : Instance
  address : String
  connection : Connection

def Probing.exchange (c : FleetConfig) (p : Probing) : (r : Request) × r.Reply :=
  ⟨.probe p.address c.probePort c.probeTimeout, p.connection⟩

/-- What some probes make of an instance: one that was probed is reachable exactly if its own connection was opened, and
any other one is left alone. -/
inductive Marked (probes : List Probing) : Instance → Instance → Prop
  | probed {p : Probing} (hp : p ∈ probes) :
    Marked probes p.probed { p.probed with reachable := p.connection.isOpen }
  | left {i : Instance} (h : ∀ p ∈ probes, p.probed.id ≠ i.id) : Marked probes i i

/-- From one run to another the instances of the groups that were due were probed, each once and at its own address, and
marked accordingly; nothing else was asked or changed. -/
structure Probed (c : FleetConfig) (groups : List Group) (probes : List Probing) (u v : Run Fleet σ) : Prop where
  whom : probes.map Probing.probed = u.own.instances.filter fun i => Due groups i
  once : (probes.map fun p => p.probed.id).Nodup
  addresses : ∀ p ∈ probes, p.probed.address = some p.address
  asked : ∃ new, v.history = u.history ++ new ∧ questions new = probes.map (Probing.exchange c)
  marked : List.Forall₂ (Marked probes) u.own.instances v.own.instances
  images_eq : v.own.images = u.own.images

/-- The instances with their addresses and the connections, by position. -/
def probesOn (due : List Instance) (connections : List Connection) : List Probing :=
  List.zipWith (fun i connection => ⟨i, i.address.getD "", connection⟩) due connections

section Probes

variable {due : List Instance} {connections : List Connection}

theorem probed_probesOn (h : connections.length = due.length) :
    (probesOn due connections).map Probing.probed = due := by
  induction due generalizing connections with
  | nil => rfl
  | cons i due ih =>
    cases connections with
    | nil => cases h
    | cons connection connections =>
      have hrest := ih (Nat.succ.inj h)
      rw [probesOn, List.zipWith_cons_cons, List.map_cons]
      exact congrArg (i :: ·) hrest

theorem probesOf_eq (c : FleetConfig) :
    probesOf c (due.map fun i => (i.id, i.address.getD "")) connections
      = (probesOn due connections).map (Probing.exchange c) := by
  rw [probesOf, probesOn, List.zipWith_map_left, List.map_zipWith]
  rfl

/-- The identifiers that are confirmed are those of the probes whose own connection was opened. -/
theorem mem_answering_iff {id : InstanceId} :
    id ∈ (answering (due.map fun i => (i.id, i.address.getD "")) connections).map Prod.fst
      ↔ ∃ p ∈ probesOn due connections, p.probed.id = id ∧ p.connection.isOpen = true := by
  induction due generalizing connections with
  | nil => simp [answering, probesOn]
  | cons i due ih =>
    cases connections with
    | nil => simp [answering, probesOn]
    | cons connection connections =>
      have hprobes : probesOn (i :: due) (connection :: connections)
          = ⟨i, i.address.getD "", connection⟩ :: probesOn due connections := rfl
      rw [hprobes, List.exists_mem_cons_iff, ← ih]
      cases hopen : connection.isOpen with
      | false => simp [answering, hopen]
      | true => simp [answering, hopen, eq_comm (a := id)]

theorem address_of_mem_probesOn {p : Probing} (hp : p ∈ probesOn due connections) :
    p.address = p.probed.address.getD "" := by
  rw [probesOn, ← List.map_uncurry_zip_eq_zipWith] at hp
  obtain ⟨⟨i, connection⟩, -, rfl⟩ := List.mem_map.mp hp
  rfl

end Probes

/-- Confirming those whose own connection was opened marks the instances. -/
theorem marked_confirmIf {is : List Instance} {groups : List Group} {probes : List Probing}
    {answered : List InstanceId} (hids : (is.map Instance.id).Nodup)
    (hdue : ∀ p ∈ probes, p.probed ∈ is ∧ Due groups p.probed) (honce : (probes.map fun p => p.probed.id).Nodup)
    (hanswered : ∀ id, id ∈ answered ↔ ∃ p ∈ probes, p.probed.id = id ∧ p.connection.isOpen = true) {i : Instance}
    (hi : i ∈ is) : Marked probes i (confirmIf answered i) := by
  by_cases hprobed : ∃ p ∈ probes, p.probed.id = i.id
  · obtain ⟨p, hp, hid⟩ := hprobed
    obtain ⟨hmem, hd⟩ := hdue p hp
    obtain rfl : p.probed = i := List.inj_on_of_nodup_map hids hmem hi hid
    have hmark : confirmIf answered p.probed = { p.probed with reachable := p.connection.isOpen } := by
      cases hopen : p.connection.isOpen with
      | true =>
        have hin : p.probed.id ∈ answered := (hanswered _).mpr ⟨p, hp, rfl, hopen⟩
        rw [confirmIf, if_pos hin, hd.confirm_eq]
      | false =>
        -- no other probe is of the same instance
        have hout : p.probed.id ∉ answered := by
          intro hin
          obtain ⟨q, hq, hqid, hqopen⟩ := (hanswered _).mp hin
          obtain rfl : q = p := List.inj_on_of_nodup_map honce hq hp hqid
          rw [hopen] at hqopen
          cases hqopen
        rw [confirmIf, if_neg hout, ← hd.unconfirmed]
    rw [hmark]
    exact .probed hp
  · have hout : i.id ∉ answered := by
      intro hin
      obtain ⟨p, hp, hid, -⟩ := (hanswered _).mp hin
      exact hprobed ⟨p, hp, hid⟩
    rw [confirmIf, if_neg hout]
    exact .left fun p hp hid => hprobed ⟨p, hp, hid⟩

/-- Whoever is probed is due. -/
theorem due_of_mem_probesOn {is : List Instance} {groups : List Group} {connections : List Connection}
    (hlength : connections.length = (is.filter fun i => Due groups i).length) {p : Probing}
    (hp : p ∈ probesOn (is.filter fun i => Due groups i) connections) : p.probed ∈ is ∧ Due groups p.probed := by
  have hmem := List.mem_map_of_mem (f := Probing.probed) hp
  rw [probed_probesOn hlength] at hmem
  obtain ⟨hmem, hdue⟩ := List.mem_filter.mp hmem
  exact ⟨hmem, of_decide_eq_true hdue⟩

/-- Nobody is probed twice. -/
theorem nodup_probesOn {is : List Instance} (hids : (is.map Instance.id).Nodup) (groups : List Group)
    {connections : List Connection} (hlength : connections.length = (is.filter fun i => Due groups i).length) :
    ((probesOn (is.filter fun i => Due groups i) connections).map fun p => p.probed.id).Nodup := by
  have hmap : (probesOn (is.filter fun i => Due groups i) connections).map (fun p => p.probed.id)
      = (is.filter fun i => Due groups i).map Instance.id := by
    rw [show (fun p : Probing => p.probed.id) = Instance.id ∘ Probing.probed from rfl, ← List.map_map,
      probed_probesOn hlength]
  rw [hmap]
  exact hids.sublist (List.filter_sublist.map Instance.id)

/-- Probing probes whoever is due, and marks them. -/
theorem probed_probeRunning (w : World σ) (c : FleetConfig) (groups : List Group) {u : Run Fleet σ}
    (hids : (u.own.instances.map Instance.id).Nodup) :
    ∃ probes v, (probeRunning c groups : Program Fleet ε Unit).run w u = (.returned (), v)
      ∧ Probed c groups probes u v := by
  obtain ⟨connections, t, new, hrun, hlength, hasking, hasks⟩ := run_probeRunning (ε := ε) w c groups u
  rw [candidates_eq] at hrun hlength hasks
  rw [List.length_map] at hlength
  have honce := nodup_probesOn hids groups hlength
  refine ⟨probesOn _ connections, _, hrun, probed_probesOn hlength, honce, ?addresses, ?asked, ?marked, ?images⟩
  case addresses =>
    intro p hp
    obtain ⟨address, haddress⟩ := Option.isSome_iff_exists.mp (due_of_mem_probesOn hlength hp).2.addressed
    rw [address_of_mem_probesOn hp, haddress]
    rfl
  case asked =>
    obtain ⟨grown, hh, -⟩ := Program.run_history w (probeRunning c groups : Program Fleet ε Unit) u
    rw [hrun] at hh
    refine ⟨grown, hh, questions_of_grown hh ?_⟩
    have hconfirmed (ids : List InstanceId) : Asks t (confirmAll t ids) [] := asks_changeEach ids t
    rw [(hasks.trans (hconfirmed _)).questions_eq, List.append_nil, probesOf_eq]
  case marked =>
    rw [own_confirmAll, hasking.own]
    refine List.forall₂_map_right_iff.mpr (List.forall₂_same.mpr fun i hi => ?_)
    exact marked_confirmIf hids (fun _ => due_of_mem_probesOn hlength) honce (fun id => mem_answering_iff) hi
  case images =>
    rw [own_confirmAll, hasking.own]
    rfl

/-! ## Whoever is confirmed stays so -/

/-- The instance is known and confirmed. -/
def Confirmed (f : Fleet) (id : InstanceId) : Prop := ∃ i, f.get? id = some i ∧ i.reachable = true

/-- The instance runs at every moment of what happens. -/
def RunsThroughout (f : Fleet) (id : InstanceId) (h : List (Happening Fleet)) : Prop :=
  ∀ past, past <+: h → (replay f past : Fleet).Runs id

section Changes

variable {f : Fleet} {id : InstanceId}

theorem get?_update (f : Fleet) (other : InstanceId) {g : Instance → Instance} (hid : ∀ i, (g i).id = i.id)
    (id : InstanceId) : (f.update other g).get? id = (f.get? id).map fun i => if i.id = other then g i else i :=
  get?_map f (fun i => by split <;> simp [hid]) id

/-- An update keeps an instance confirmed if it keeps the flag of one that runs before and after. -/
theorem Confirmed.update (h : Confirmed f id) (hbefore : f.Runs id) {other : InstanceId} {g : Instance → Instance}
    (hid : ∀ i, (g i).id = i.id)
    (hg : ∀ i, f.get? other = some i → i.reachable = true → i.state = .running → (g i).state = .running →
      (g i).reachable = true) (hafter : (f.update other g).Runs id) : Confirmed (f.update other g) id := by
  obtain ⟨i, hi, hflag⟩ := h
  obtain ⟨i', hi', hstate⟩ := hbefore
  obtain ⟨j, hj, hstate'⟩ := hafter
  rw [hi] at hi'
  cases hi'
  rw [get?_update f other hid, hi, Option.map_some] at hj
  cases hj
  refine ⟨_, by rw [get?_update f other hid, hi, Option.map_some], ?_⟩
  by_cases hsame : i.id = other
  · rw [if_pos hsame] at hstate' ⊢
    have hother : f.get? other = some i := by rw [← hsame, (mem_of_get? hi).2, hi]
    exact hg i hother hflag hstate hstate'
  · rw [if_neg hsame]
    exact hflag

/-- A change keeps an instance confirmed that runs before and after, if it confirms only who has an address. -/
theorem Confirmed.apply (h : Confirmed f id) (hbefore : f.Runs id) {c : Change}
    (haddress : ∀ other i, c = .confirmed other → f.get? other = some i → i.address.isSome = true)
    (hafter : (f.apply c).Runs id) : Confirmed (f.apply c) id := by
  have henter (i : Instance) (state : InstanceState) (hflag : i.reachable = true) (hrun : i.state = .running)
      (hstate : state = .running) :
      (i.reachable && decide (state = .running) && decide (i.state = .running)) = true := by
    simp [hflag, hrun, hstate]
  cases c with
  | added other region state =>
    obtain ⟨i, hi, hflag⟩ := h
    exact ⟨i, by rw [get?_added, hi, Option.some_or], hflag⟩
  | loaded record state status =>
    exact h.update hbefore (fun _ => rfl) (fun i _ hflag hrun hstate => henter i state hflag hrun hstate) hafter
  | entered other state =>
    exact h.update hbefore (fun _ => rfl) (fun i _ hflag hrun hstate => henter i state hflag hrun hstate) hafter
  | confirmed other =>
    refine h.update hbefore Instance.id_confirm (fun i hi hflag hrun _ => ?_) hafter
    rw [Instance.confirm, Instance.confirmable, hrun, haddress other i rfl hi]
    rfl
  | imageFound region image => exact h

end Changes

/-- Confirming instances that have an address, one after the other: a confirmation leaves the addresses alone. -/
theorem confirmAll_keeps {I : Run Fleet σ → Prop}
    (hconfirm : ∀ t other, (∀ i, t.own.get? other = some i → i.address.isSome = true) → I t →
      I (t.change (Change.confirmed other))) (ids : List InstanceId) {t : Run Fleet σ} (ht : I t)
    (haddress : ∀ other ∈ ids, ∀ i, t.own.get? other = some i → i.address.isSome = true) : I (confirmAll t ids) := by
  induction ids generalizing t with
  | nil => exact ht
  | cons id ids ih =>
    refine ih (hconfirm t id (haddress id List.mem_cons_self) ht) fun other hother i hi => ?_
    rw [Run.own_change, memory_apply, apply, get?_update t.own id Instance.id_confirm] at hi
    obtain ⟨j, hj, rfl⟩ := Option.map_eq_some_iff.mp hi
    have hsame := haddress other (List.mem_cons_of_mem _ hother) j hj
    split <;> exact hsame

/-- Whoever answers a probe was a candidate, so has an address. -/
theorem address_of_mem_answering {f : Fleet} (hids : (f.instances.map Instance.id).Nodup) {groups : List Group}
    {connections : List Connection} {id : InstanceId}
    (h : id ∈ (answering (f.candidates groups) connections).map Prod.fst) {i : Instance} (hi : f.get? id = some i) :
    i.address.isSome = true := by
  obtain ⟨⟨id, address⟩, hanswering, rfl⟩ := List.mem_map.mp h
  obtain ⟨⟨candidate, connection⟩, hzip, rfl⟩ := List.mem_map.mp hanswering
  have hcandidate := (List.of_mem_zip (List.mem_filter.mp hzip).1).1
  obtain ⟨j, hj, rfl, -, haddress, -⟩ := mem_candidates_iff.mp hcandidate
  rw [get?_of_mem hids hj] at hi
  cases hi
  rw [haddress]
  rfl

/-- Probing keeps what requests keep, and confirmations of who has an address. -/
theorem keeps_probeRunning_addressed {w : World σ} {I : Run Fleet σ → Prop}
    (hids : ∀ t, I t → (t.own.instances.map Instance.id).Nodup) (hask : ∀ t r, I t → I (t.ask w r))
    (hconfirm : ∀ t other, (∀ i, t.own.get? other = some i → i.address.isSome = true) → I t →
      I (t.change (Change.confirmed other))) (c : FleetConfig) (groups : List Group) :
    Keeps w I (probeRunning c groups : FleetProgram Unit) := by
  intro t ht
  have hasked := keeps_probes (ε := FleetError) (fun t r _ _ => hask t r) c (t.own.candidates groups) t ht
  obtain ⟨connections, u, new, hrun, -, hasking, -⟩ := run_probes (ε := FleetError) w c (t.own.candidates groups) t
  rw [hrun] at hasked
  rw [run_probeRunning_of_asked hrun]
  refine confirmAll_keeps hconfirm _ hasked fun other hother i hi => ?_
  rw [hasking.own] at hi
  exact address_of_mem_answering (hids t ht) hother hi

/-- What was added since a run is remembered; no identifier is listed twice; and at every moment since, the instance is
confirmed if it ran at every moment up to then. -/
structure StaysConfirmed (id : InstanceId) (s t : Run Fleet σ) : Prop where
  ids_nodup : (t.own.instances.map Instance.id).Nodup
  grown : ∃ new, t.history = s.history ++ new ∧ t.own = replay s.own new
    ∧ ∀ past, past <+: new → RunsThroughout s.own id past → Confirmed (replay s.own past) id

namespace StaysConfirmed

variable {s t : Run Fleet σ} {id : InstanceId}

theorem refl (hids : (s.own.instances.map Instance.id).Nodup) (h : Confirmed s.own id) : StaysConfirmed id s s := by
  refine ⟨hids, [], (List.append_nil _).symm, rfl, fun past hp _ => ?_⟩
  rw [List.prefix_nil.mp hp]
  exact h

/-- One more thing that happens, if it keeps an instance confirmed that runs before and after. -/
theorem extend (h : StaysConfirmed id s t) {u : Run Fleet σ} {happening : Happening Fleet}
    (hids : (u.own.instances.map Instance.id).Nodup) (hh : u.history = t.history ++ [happening])
    (hown : u.own = replay t.own [happening])
    (hstep : Confirmed t.own id → t.own.Runs id → u.own.Runs id → Confirmed u.own id) : StaysConfirmed id s u := by
  obtain ⟨-, new, hht, htown, hkept⟩ := h
  have hall : u.own = replay s.own (new ++ [happening]) := by rw [replay_append, ← htown, hown]
  refine ⟨hids, new ++ [happening], by rw [hh, hht, List.append_assoc], hall, fun past hp hruns => ?_⟩
  rcases List.prefix_concat_iff.mp hp with rfl | hp
  · have hbefore : RunsThroughout s.own id new := fun past hp => hruns past (hp.trans (List.prefix_append _ _))
    have hnow := hkept new (List.prefix_refl new) hbefore
    have hruns' := hbefore new (List.prefix_refl new)
    have hafter := hruns _ (List.prefix_refl _)
    rw [← htown] at hnow hruns'
    rw [← hall] at hafter ⊢
    exact hstep hnow hruns' hafter
  · exact hkept past hp hruns

theorem ask (h : StaysConfirmed id s t) (w : World σ) (r : Request) : StaysConfirmed id s (t.ask w r) :=
  h.extend h.ids_nodup rfl rfl fun hnow _ _ => hnow

theorem change (h : StaysConfirmed id s t) {c : Change}
    (hadd : ∀ other region state, c = .added other region state → ¬t.own.knows other = true)
    (haddress : ∀ other i, c = .confirmed other → t.own.get? other = some i → i.address.isSome = true) :
    StaysConfirmed id s (t.change c) :=
  h.extend (ids_nodup_apply h.ids_nodup hadd) rfl rfl fun hnow hbefore hafter => hnow.apply hbefore haddress hafter

end StaysConfirmed

theorem stable_staysConfirmed (w : World σ) (id : InstanceId) (s : Run Fleet σ) : Stable w (StaysConfirmed id s) where
  asked _ r _ _ h := h.ask w r
  observed := keeps_observe (fun _ r h => h.ask w r) fun _ _ hc hadd h => h.change hadd fun _ _ he => absurd he (hc _)
  moved _ _ _ h := h.change (fun _ _ _ => nofun) fun _ _ => nofun
  probed := keeps_probeRunning_addressed (fun _ h => h.ids_nodup) (fun _ r h => h.ask w r) fun t other haddress h =>
    h.change (fun _ _ _ => nofun) fun other' i he hi => by cases he; exact haddress i hi
  imaged _ _ _ h := h.change (fun _ _ _ => nofun) fun _ _ => nofun

/-- Nobody was confirmed since a run: who is confirmed was so before. -/
structure Unraised (s t : Run Fleet σ) : Prop where
  ids_nodup : (t.own.instances.map Instance.id).Nodup
  confirmed : ∀ i ∈ t.own.instances, i.reachable = true → ∃ j ∈ s.own.instances, j.id = i.id ∧ j.reachable = true

theorem Unraised.change {s t : Run Fleet σ} (h : Unraised s t) {c : Change} (hc : ∀ other, c ≠ .confirmed other)
    (hadd : ∀ other region state, c = .added other region state → ¬t.own.knows other = true) :
    Unraised s (t.change c) := by
  have hids := ids_nodup_apply h.ids_nodup hadd
  refine ⟨hids, fun i hi hflag => ?_⟩
  obtain ⟨⟨j, hj, hji, hflag', -⟩, -⟩ := undisturbed_of_reachable hids hc hi hflag
  obtain ⟨k, hk, hkj, hflag''⟩ := h.confirmed j hj hflag'
  exact ⟨k, hk, hkj.trans hji, hflag''⟩

/-- Describing confirms nobody. -/
theorem unraised_describeGroups {w : World σ} {groups : List Group} {s u : Run Fleet σ}
    {ending : Ending FleetError (List Failure × Nat)} (hids : (s.own.instances.map Instance.id).Nodup)
    (hrun : (describeGroups groups).run w s = (ending, u)) : Unraised s u := by
  have hkeeps : Keeps w (Unraised s) (describeGroups groups) :=
    keeps_describeGroups (fun _ _ _ _ _ h => ⟨h.ids_nodup, h.confirmed⟩)
      (keeps_observe (fun _ _ h => ⟨h.ids_nodup, h.confirmed⟩) fun _ _ hc hadd h => h.change hc hadd) groups
  have hu := hkeeps s ⟨hids, fun i hi hflag => ⟨i, hi, rfl, hflag⟩⟩
  rwa [hrun] at hu

/-! ## Probes of a refresh -/

/-- What a refresh does that gets as far as probing. -/
theorem run_refresh_of_described (w : World σ) {c : FleetConfig} {target : Target} {groups : List Group}
    {found : List Failure × Nat} {s u v : Run Fleet σ} (hgroups : groupsOf c s.own target = .ok groups)
    (hdescribed : (describeGroups groups).run w s = (.returned found, u))
    (hprobed : (probeRunning c groups : FleetProgram Unit).run w u = (.returned (), v)) :
    (refresh c target).run w s = (if found.1 = [] then .returned () else .failed (.provider found.1),
      v.ask w (.announce (.refreshed groups.length found.2))) := by
  have hfound : (Program.ofExcept (groupsOf c s.own target) : FleetProgram _).run w s = (.returned groups, s) := by
    rw [hgroups]
    rfl
  rw [refresh, Program.run_andThen_of_returned (Program.run_memory w s), Program.run_andThen_of_returned hfound,
    Program.run_andThen_of_returned hdescribed, Program.run_andThen_of_returned hprobed,
    Program.run_andThen_of_returned (Program.run_request w _ v), run_settle]

/-- Who is probed is due. -/
theorem Probed.due {c : FleetConfig} {groups : List Group} {probes : List Probing} {u v : Run Fleet σ}
    (h : Probed c groups probes u v) {i : Instance} :
    (∃ p ∈ probes, p.probed = i) ↔ i ∈ u.own.instances ∧ Due groups i := by
  have hmap : (∃ p ∈ probes, p.probed = i) ↔ i ∈ probes.map Probing.probed := by rw [List.mem_map]
  rw [hmap, h.whom, List.mem_filter, decide_eq_true_iff]

/-- Whoever stayed confirmed until the probes is not probed. -/
theorem StaysConfirmed.not_probed {id : InstanceId} {c : FleetConfig} {groups : List Group} {probes : List Probing}
    {s u v : Run Fleet σ} (h : StaysConfirmed id s u) (hprobed : Probed c groups probes u v) :
    ∃ new, u.history = s.history ++ new
      ∧ (∀ past, past <+: new → RunsThroughout s.own id past → Confirmed (replay s.own past) id)
      ∧ (RunsThroughout s.own id new → ∀ p ∈ probes, p.probed.id ≠ id) := by
  obtain ⟨hids, new, hh, hown, hkept⟩ := h
  refine ⟨new, hh, hkept, fun hruns p hp hid => ?_⟩
  obtain ⟨i, hi, hflag⟩ := hkept new (List.prefix_refl new) hruns
  obtain ⟨hmem, hdue⟩ := hprobed.due.mp ⟨p, hp, rfl⟩
  rw [← hown, ← hid, get?_of_mem hids hmem] at hi
  cases hi
  rw [hdue.unconfirmed] at hflag
  cases hflag

/-- Whoever was not confirmed is not after a description. -/
theorem Unraised.unconfirmed {s u : Run Fleet σ} (h : Unraised s u) (hids : (s.own.instances.map Instance.id).Nodup)
    {i : Instance} (hi : i ∈ u.own.instances) (hnot : ¬Confirmed s.own i.id) : i.reachable = false := by
  cases hflag : i.reachable with
  | false => rfl
  | true =>
    obtain ⟨j, hj, hji, hjflag⟩ := h.confirmed i hi hflag
    exact absurd ⟨j, hji ▸ get?_of_mem hids hj, hjflag⟩ hnot

/-- In a fleet that lists no identifier twice, and whatever operations and answers come: a refresh that gets as far as
probing probes exactly those that are due then, each once and at its own address, and marks each of them by its own
connection and nobody else. Whoever is confirmed and runs at every moment since is confirmed, so not due, and not
probed; who was not confirmed before the refresh, and belongs to it, runs and has an address at the probes, is probed.
And whoever is returned by a reboot answered a probe that came after the call of its region. -/
theorem probing_is_exact (w : World σ) (c : FleetConfig) {s : FleetRun σ} {t u : Run Fleet σ}
    {os : List (Nat × Operation)} (ht : t = runAll w c s.toRun os)
    {target : Target} {groups : List Group} {found : List Failure × Nat}
    (hgroups : groupsOf c t.own target = .ok groups)
    (hdescribed : (describeGroups groups).run w t = (.returned found, u)) :
    (∃ probes v, (refresh c target).run w t = (if found.1 = [] then .returned () else .failed (.provider found.1),
        v.ask w (.announce (.refreshed groups.length found.2)))
      ∧ Probed c groups probes u v
      ∧ (∀ id, Confirmed s.own id → ∃ new, u.history = s.history ++ new
        ∧ (∀ past, past <+: new → RunsThroughout s.own id past → Confirmed (replay s.own past) id)
        ∧ (RunsThroughout s.own id new → ∀ p ∈ probes, p.probed.id ≠ id))
      ∧ ∀ i ∈ u.own.instances, ¬Confirmed t.own i.id → Belongs groups i → i.state = .running →
        i.address.isSome = true → ∃ p ∈ probes, p.probed = i)
    ∧ ∀ (world : σ) (earlier : List (Nat × Operation)) patience target sub v,
      (reboot c patience target false).run w (runAll w c (fresh world) earlier) = (.returned sub, v) →
      ∃ new, v.history = (runAll w c (fresh world) earlier).history ++ new
        ∧ ∀ i ∈ sub, ProbedSince .reboot i (runAll w c (fresh world) earlier).own new := by
  subst ht
  have hnow := (s.runAll w c os).distinct
  have hraised := unraised_describeGroups hnow hdescribed
  obtain ⟨probes, v, hprobed, hexact⟩ := probed_probeRunning (ε := FleetError) w c groups hraised.ids_nodup
  refine ⟨⟨probes, v, run_refresh_of_described w hgroups hdescribed hprobed, hexact, ?confirmed, ?unconfirmed⟩,
    ?rebooted⟩
  case confirmed =>
    intro id hconfirmed
    have hstable := stable_staysConfirmed w id s.toRun
    have hall := hstable.runAll (fun _ r _ h => h.ask w r) c os (.refl s.distinct hconfirmed)
    have hu := hstable.described groups _ hall
    rw [hdescribed] at hu
    exact hu.not_probed hexact
  case unconfirmed =>
    intro i hi hnot hbelongs hrun haddress
    exact hexact.due.mpr ⟨hi, hbelongs, hrun, hraised.unconfirmed hnow hi hnot, haddress⟩
  case rebooted =>
    intro world earlier patience target sub v hrun
    obtain ⟨targets, -, harrived⟩ :=
      (moving_ensures w c patience .reboot target (watched_runAll w c world earlier)).of_returned hrun
    exact harrived.probed (.inr rfl)

/-- A cloud with three instances in two regions, all of which run; one of them does not answer a probe. -/
def threeRunning : World Unit where
  answer
    | .cloud (.describeInstances region _), _ =>
      (.ok (if region = ⟨"us-east-1"⟩ then [⟨"i-3", some "c", "running"⟩]
        else [⟨"i-1", some "a", "running"⟩, ⟨"i-2", some "b", "running"⟩]), ())
    | .cloud (.describeStatuses ..), _ => (.ok [], ())
    | .probe address _ _, _ => (if address = "c" then .refused noNetwork else .opened, ())
    | r, _ => (r.unanswered, ())

/-- Its two regions. -/
def probedRegions : FleetConfig := { regions := [⟨"eu-west-3"⟩, ⟨"us-east-1"⟩] }

/-- A fleet that has reached one of the three before. -/
def firstReached : FleetRun Unit where
  own := { instances := [⟨"i-1", ⟨"eu-west-3"⟩, some "a", .running, true, none⟩] }
  world := ()
  history := []
  distinct := by decide

/-- The run of its next refresh before its probes. -/
def allDescribed : Run Fleet Unit :=
  ((describeGroups [(⟨"eu-west-3"⟩, []), (⟨"us-east-1"⟩, [])]).run threeRunning firstReached.toRun).2

/-- The two others are probed, and the one that answers is reached. -/
theorem probing_is_exact_three :
    groupsOf probedRegions firstReached.own .all = .ok [(⟨"eu-west-3"⟩, []), (⟨"us-east-1"⟩, [])]
    ∧ (describeGroups [(⟨"eu-west-3"⟩, []), (⟨"us-east-1"⟩, [])]).run threeRunning firstReached.toRun
      = (.returned ([], 3), allDescribed)
    ∧ ∃ probes v, (refresh probedRegions .all).run threeRunning firstReached.toRun
        = (.returned (), v.ask threeRunning (.announce (.refreshed 2 3)))
      ∧ Probed probedRegions [(⟨"eu-west-3"⟩, []), (⟨"us-east-1"⟩, [])] probes allDescribed v
      ∧ probes.map (fun p => p.probed.id) = ["i-2", "i-3"]
      ∧ v.own.instances.map Instance.reachable = [true, true, false] := by
  have hdescribed : (describeGroups [(⟨"eu-west-3"⟩, []), (⟨"us-east-1"⟩, [])]).run threeRunning firstReached.toRun
      = (.returned ([], 3), allDescribed) := Prod.ext rfl rfl
  have hgroups : groupsOf probedRegions firstReached.own .all = .ok [(⟨"eu-west-3"⟩, []), (⟨"us-east-1"⟩, [])] := rfl
  have hnone : firstReached.toRun = runAll threeRunning probedRegions firstReached.toRun [] := rfl
  obtain ⟨⟨probes, v, hrun, hexact, -⟩, -⟩ := probing_is_exact threeRunning probedRegions hnone hgroups hdescribed
  refine ⟨hgroups, hdescribed, probes, v, hrun, hexact, ?_, ?_⟩
  · have hwhom : probes.map (fun p => p.probed.id) = (probes.map Probing.probed).map Instance.id := by
      rw [List.map_map]
      rfl
    rw [hwhom, hexact.whom]
    decide
  · have hown : ((refresh probedRegions .all).run threeRunning firstReached.toRun).2.own = v.own := by rw [hrun, Run.own_ask]
    rw [← hown]
    decide +kernel

end Fleet

end CloudFleet
