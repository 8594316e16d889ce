import CloudFleet.Proofs.Fleet.Launching
import CloudFleet.Proofs.Fleet.Describing
import CloudFleet.Proofs.Fleet.Images

/-!
# Browsing before a purchase

What is spent is in the history as commitments: the questions for consent, and the launches (`commitments`). Before it
asks for consent, creating instances only browses (`Browses`): it looks images up, and all of them are known exactly if
no lookup failed or came back empty (`run_selectImages`); and it reads the script for new instances (`run_bootstrap`).
-/

set_option autoImplicit false

namespace CloudFleet

variable {σ ε : Type}

/-- The plan that a request announces, with the numbers of running instances and of those to launch. -/
def Request.planned? : Request → Option (List (Region × Nat) × Nat × Nat)
  | .announce (.launchPlanned plan running toLaunch) => some (plan, running, toLaunch)
  | _ => none

namespace Fleet

/-! ## What is committed, planned and found in a history -/

/-- The questions for consent and the launches, with their answers. -/
def commitments (h : List (Happening Fleet)) : List ((r : Request) × r.Reply) :=
  (exchanges h).filter fun x => x.1.commits

/-- The plans that were announced. -/
def plans (h : List (Happening Fleet)) : List (List (Region × Nat) × Nat × Nat) :=
  (requests h).filterMap Request.planned?

/-- Whether what happened is not a lookup of an image, or one that found some. -/
def finds : Happening Fleet → Bool
  | .asked (.cloud (.describeImages ..)) (.ok images) => !images.isEmpty
  | .asked (.cloud (.describeImages ..)) (.error _) => false
  | _ => true

/-- All lookups of images found some. -/
def AllFound (h : List (Happening Fleet)) : Prop := ∀ x ∈ h, finds x = true

section Histories

variable {h k : List (Happening Fleet)} {r : Request}

theorem commitments_append (h k : List (Happening Fleet)) : commitments (h ++ k) = commitments h ++ commitments k := by
  simp [commitments]

theorem commitments_asked (hr : r.commits = false) (reply : r.Reply) (h : List (Happening Fleet)) :
    commitments (.asked r reply :: h) = commitments h := by
  simp [commitments, exchanges, hr]

theorem commitments_committed (hr : r.commits = true) (reply : r.Reply) (h : List (Happening Fleet)) :
    commitments (.asked r reply :: h) = ⟨r, reply⟩ :: commitments h := by
  simp [commitments, exchanges, hr]

theorem commitments_changed (c : Change) (h : List (Happening Fleet)) :
    commitments (.changed c :: h) = commitments h := rfl

theorem plans_append (h k : List (Happening Fleet)) : plans (h ++ k) = plans h ++ plans k := by
  simp [plans]

theorem allFound_append : AllFound (h ++ k) ↔ AllFound h ∧ AllFound k := by
  simp only [AllFound, List.mem_append]
  constructor
  · exact fun hf => ⟨fun x hx => hf x (.inl hx), fun x hx => hf x (.inr hx)⟩
  · rintro ⟨hh, hk⟩ x (hx | hx)
    · exact hh x hx
    · exact hk x hx

theorem stable_commitments (w : World σ) (committed : List ((r : Request) × r.Reply)) :
    Stable w fun t => commitments t.history = committed := by
  refine Stable.of_steps (fun s r hr hs => ?_) fun s c hs => ?_
  · rw [Run.history_ask, commitments_append, commitments_asked hr, hs]
    exact List.append_nil committed
  · rw [Run.history_change, commitments_append, commitments_changed, hs]
    exact List.append_nil committed

end Histories

/-! ## Browsing -/

/-- Of the provider nothing but images of the regions is asked, and no instance is touched. -/
structure Browses (c : FleetConfig) (regions : List Region) (h : List (Happening Fleet)) : Prop where
  calls : ∀ call, .cloud call ∈ requests h →
    ∃ region ∈ regions, call = .describeImages region c.imageOwner c.imageNamePattern
  instances : ∀ f, (replay f h).instances = f.instances

namespace Browses

variable {c : FleetConfig} {regions : List Region} {h k : List (Happening Fleet)}

theorem nil (c : FleetConfig) (regions : List Region) : Browses c regions [] :=
  ⟨by simp [requests, exchanges], fun _ => rfl⟩

theorem append (hh : Browses c regions h) (hk : Browses c regions k) : Browses c regions (h ++ k) := by
  refine ⟨fun call hc => ?_, fun f => ?_⟩
  · rw [requests_append] at hc
    exact (List.mem_append.mp hc).elim (hh.calls call) (hk.calls call)
  · rw [replay_append, hk.instances, hh.instances]

theorem cons {x : Happening Fleet} (hx : Browses c regions [x]) (hh : Browses c regions h) :
    Browses c regions (x :: h) := hx.append hh

/-- Whatever is asked of others than the provider is browsing. -/
theorem asked (c : FleetConfig) (regions : List Region) {r : Request} (hr : ∀ call, r ≠ .cloud call)
    (reply : r.Reply) : Browses c regions [.asked r reply] := by
  refine ⟨fun call hc => ?_, fun f => rfl⟩
  have heq : Request.cloud call = r := by simpa [requests, exchanges] using hc
  exact absurd heq.symm (hr call)

end Browses

/-- Images were looked up: nothing was committed, planned or read. -/
structure Lookups (c : FleetConfig) (regions : List Region) (h : List (Happening Fleet)) : Prop where
  browses : Browses c regions h
  uncommitted : commitments h = []
  unplanned : plans h = []
  unread : ∀ call reply, Happening.asked (.file call) reply ∉ h

namespace Lookups

variable {c : FleetConfig} {regions : List Region} {h k : List (Happening Fleet)}

theorem nil (c : FleetConfig) (regions : List Region) : Lookups c regions [] := ⟨.nil c regions, rfl, rfl, by simp⟩

theorem append (hh : Lookups c regions h) (hk : Lookups c regions k) : Lookups c regions (h ++ k) := by
  refine ⟨hh.browses.append hk.browses, ?_, ?_, fun call reply hm => ?_⟩
  · rw [commitments_append, hh.uncommitted, hk.uncommitted]
    rfl
  · rw [plans_append, hh.unplanned, hk.unplanned]
    rfl
  · exact (List.mem_append.mp hm).elim (hh.unread call reply) (hk.unread call reply)

theorem looked {region : Region} (hr : region ∈ regions) (answer : Except CloudError (List ImageRecord)) :
    Lookups c regions [.asked (.cloud (.describeImages region c.imageOwner c.imageNamePattern)) answer] := by
  refine ⟨⟨fun call hc => ⟨region, hr, ?_⟩, fun f => rfl⟩, rfl, rfl, by simp⟩
  simpa [requests, exchanges] using hc

theorem noted (c : FleetConfig) (regions : List Region) (line : LogLine) :
    Lookups c regions [.asked (.log line) ()] := ⟨.asked c regions (by simp) _, rfl, rfl, by simp⟩

theorem found (c : FleetConfig) (regions : List Region) (region : Region) (image : String) :
    Lookups c regions [.changed (Change.imageFound region image)] :=
  ⟨⟨by simp [requests, exchanges], fun _ => rfl⟩, rfl, rfl, by simp⟩

theorem selected (c : FleetConfig) (regions : List Region) (region : Region) (image : String) :
    Lookups c regions [.asked (.announce (.imageSelected region image)) ()] :=
  ⟨.asked c regions (by simp) _, rfl, rfl, by simp⟩

end Lookups

/-- From one run to another images were looked up. -/
structure Looking (c : FleetConfig) (regions : List Region) (s t : Run Fleet σ) (h : List (Happening Fleet)) : Prop where
  history : t.history = s.history ++ h
  own : t.own = replay s.own h
  lookups : Lookups c regions h

namespace Looking

variable {c : FleetConfig} {regions : List Region} {s t u : Run Fleet σ} {h k : List (Happening Fleet)}

theorem refl (c : FleetConfig) (regions : List Region) (s : Run Fleet σ) : Looking c regions s s [] :=
  ⟨by simp, rfl, .nil c regions⟩

theorem trans (hst : Looking c regions s t h) (htu : Looking c regions t u k) : Looking c regions s u (h ++ k) := by
  refine ⟨?_, ?_, hst.lookups.append htu.lookups⟩
  · rw [htu.history, hst.history, List.append_assoc]
  · rw [htu.own, hst.own, replay_append]

theorem ask (w : World σ) (s : Run Fleet σ) {r : Request} (hl : Lookups c regions [.asked r (s.reply w r)]) :
    Looking c regions s (s.ask w r) [.asked r (s.reply w r)] := ⟨rfl, rfl, hl⟩

theorem change (s : Run Fleet σ) {change : Change} (hl : Lookups c regions [.changed change]) :
    Looking c regions s (s.change change) [.changed change] := ⟨rfl, rfl, hl⟩

end Looking

/-! ## Looking images up -/

/-- There is a latest image where there is any. -/
theorem latest?_isSome (images : List ImageRecord) : (Cloud.latest? images).isSome = !images.isEmpty := by
  rw [Bool.eq_iff_iff, ← Option.ne_none_iff_isSome, Ne, Cloud.latest?_eq_none_iff]
  simp

/-- How looking up the image of one region ends: it is known or found, there is none, or the lookup failed. -/
inductive Lookup (region : Region) (h : List (Happening Fleet)) : Cloud.Answer (List (Region × Option String)) → Prop
  | known (hfound : AllFound h) : Lookup region h (.ok [])
  | found (hfound : AllFound h) (image : String) : Lookup region h (.ok [(region, some image)])
  | none (hfound : ¬AllFound h) : Lookup region h (.ok [(region, none)])
  | failed (hfound : ¬AllFound h) (e : CloudError) : Lookup region h (.error e)

section Lookups

variable {c : FleetConfig} {all : List Region}

theorem run_findImage (w : World σ) {region : Region} (hr : region ∈ all) (s : Run Fleet σ) :
    ∃ h t answer, (findImages c.imageOwner c.imageNamePattern [region] : Program Fleet ε _).run w s
        = (.returned answer, t) ∧ Looking c all s t h ∧ Lookup region h answer := by
  rw [findImages, Program.run_andThen_of_returned (Program.run_memory w s)]
  by_cases hknown : (s.own.image? region).isSome = true
  · rw [if_pos hknown]
    exact ⟨[], s, .ok [], rfl, .refl c all s, .known (by simp [AllFound])⟩
  · rw [if_neg hknown, Cloud.call, Program.run_andThen_of_returned (Program.run_request w _ s)]
    have hasked : Looking c all s (s.ask w (.cloud (.describeImages region c.imageOwner c.imageNamePattern))) _ :=
      .ask w s (.looked hr _)
    cases hanswer : s.reply w (.cloud (.describeImages region c.imageOwner c.imageNamePattern)) with
    | error e =>
      rw [hanswer] at hasked
      exact ⟨_, _, _, rfl, hasked, .failed (by simp [AllFound, finds]) e⟩
    | ok images =>
      rw [hanswer] at hasked
      have hsome := latest?_isSome images
      dsimp only
      generalize hfound : (Cloud.latest? images).map ImageRecord.id = found
      generalize s.ask w (.cloud (.describeImages region c.imageOwner c.imageNamePattern)) = u at hasked
      let line : LogLine := ⟨.debug, s!"image for {region.name}: {Text.quotedOption found}"⟩
      have hnoted : Looking c all u (u.ask w (.log line)) [.asked (.log line) ()] := .ask w u (.noted c all line)
      cases found with
      | none =>
        have hnone : images.isEmpty = true := by
          rw [Option.map_eq_none_iff] at hfound
          rw [hfound] at hsome
          simpa using hsome
        exact ⟨_, _, _, rfl, hasked.trans hnoted, .none (by simp [AllFound, finds, hnone])⟩
      | some image =>
        have hsome' : images.isEmpty = false := by
          obtain ⟨latest, hlatest, -⟩ := Option.map_eq_some_iff.mp hfound
          rw [hlatest] at hsome
          simpa using hsome
        refine ⟨_, _, _, rfl, (hasked.trans hnoted).trans (.change _ (.found c all region image)), ?_⟩
        exact .found (by simp [AllFound, finds, hsome']) image

/-- The first region has an image now, or its lookup failed, or there is none; only the last ends the lookups. -/
theorem run_selectImages_cons (w : World σ) {region : Region} (hr : region ∈ all) (regions : List Region)
    (s : Run Fleet σ) :
    ∃ h t, Looking c all s t h ∧
      ((AllFound h ∧ (selectImages c (region :: regions)).run w s = (selectImages c regions).run w t)
      ∨ (¬AllFound h ∧ ∃ e, (selectImages c (region :: regions)).run w s
          = (selectImages c regions >>= fun failures => pure ((region, e) :: failures)).run w t)
      ∨ (¬AllFound h ∧ (selectImages c (region :: regions)).run w s = (.failed (.imageNotFound region), t))) := by
  obtain ⟨h, t, answer, hrun, hlooking, hlookup⟩ := run_findImage (ε := FleetError) (c := c) w hr s
  rw [selectImages, Program.run_andThen_of_returned hrun]
  cases hlookup with
  | known hfound => exact ⟨h, t, hlooking, .inl ⟨hfound, rfl⟩⟩
  | found hfound image =>
    have htold : Looking c all t (t.ask w (.announce (.imageSelected region image))) _ :=
      .ask w t (.selected c all region image)
    refine ⟨_, _, hlooking.trans htold, .inl ⟨allFound_append.mpr ⟨hfound, ?_⟩, rfl⟩⟩
    simp [AllFound, finds]
  | none hfound => exact ⟨h, t, hlooking, .inr (.inr ⟨hfound, rfl⟩)⟩
  | failed hfound e => exact ⟨h, t, hlooking, .inr (.inl ⟨hfound, e, rfl⟩)⟩

/-- Looking images up returns without failures exactly if all of them were found. -/
theorem run_selectImages (w : World σ) (regions : List Region) (hr : ∀ region ∈ regions, region ∈ all)
    (s : Run Fleet σ) :
    ∃ h t, Looking c all s t h ∧
      ((∃ failures, (selectImages c regions).run w s = (.returned failures, t) ∧ (failures = [] ↔ AllFound h))
      ∨ ∃ region, (selectImages c regions).run w s = (.failed (.imageNotFound region), t) ∧ ¬AllFound h) := by
  induction regions generalizing s with
  | nil => exact ⟨[], s, .refl c all s, .inl ⟨[], rfl, by simp [AllFound]⟩⟩
  | cons region regions ih =>
    have hrest : ∀ r ∈ regions, r ∈ all := fun r h => hr r (List.mem_cons_of_mem _ h)
    obtain ⟨h, t, hlooking, hfirst⟩ := run_selectImages_cons (c := c) w (hr region List.mem_cons_self) regions s
    obtain ⟨k, u, hlater, hends⟩ := ih hrest t
    rcases hfirst with ⟨hfound, hrun⟩ | ⟨hfound, e, hrun⟩ | ⟨hfound, hrun⟩
    · refine ⟨h ++ k, u, hlooking.trans hlater, ?_⟩
      rw [hrun, allFound_append, and_iff_right hfound]
      exact hends
    · have hnot : ¬AllFound (h ++ k) := fun hboth => hfound (allFound_append.mp hboth).1
      refine ⟨h ++ k, u, hlooking.trans hlater, ?_⟩
      rcases hends with ⟨failures, hrun', -⟩ | ⟨r, hrun', -⟩
      · refine .inl ⟨(region, e) :: failures, ?_, by simpa using hnot⟩
        rw [hrun, Program.run_andThen_of_returned hrun']
        rfl
      · refine .inr ⟨r, ?_, hnot⟩
        rw [hrun, Program.run_andThen_of_failed hrun']
    · exact ⟨h, t, hlooking, .inr ⟨region, hrun, hfound⟩⟩

end Lookups

/-! ## The script for new instances -/

/-- The script was read, if there is one, and this is its text. -/
inductive Script (c : FleetConfig) : List (Happening Fleet) → String → Prop
  | none (h : c.bootstrapScript = none) : Script c [] ""
  | read {path : Path} (h : c.bootstrapScript = some path) (text : String) :
      Script c [.asked (.file (.readText path)) (.ok text)] text

/-- This is the text that new instances get: that of the script as it was read, or none. -/
def Reads (c : FleetConfig) (h : List (Happening Fleet)) (userData : String) : Prop :=
  match c.bootstrapScript with
  | none => userData = ""
  | some path => Happening.asked (.file (.readText path)) (.ok userData) ∈ h

theorem Script.reads {c : FleetConfig} {script : List (Happening Fleet)} {userData : String}
    (h : Script c script userData) {before : List (Happening Fleet)} (hbefore : script ⊆ before) :
    Reads c before userData := by
  unfold Reads
  cases h with
  | none h => rw [h]
  | read h text =>
    rw [h]
    exact hbefore (List.mem_singleton.mpr rfl)

/-- What reading the script adds is no lookup, no plan and no commitment. -/
theorem Script.quiet {c : FleetConfig} {script : List (Happening Fleet)} {userData : String}
    (h : Script c script userData) (regions : List Region) :
    Browses c regions script ∧ commitments script = [] ∧ plans script = [] ∧ AllFound script := by
  cases h with
  | none h => exact ⟨.nil c regions, rfl, rfl, by simp [AllFound]⟩
  | read h text => exact ⟨.asked c regions (by simp) _, rfl, rfl, by simp [AllFound, finds]⟩

/-- The script is read, or that is how creating instances ends; no more happens. -/
theorem run_bootstrap (w : World σ) (c : FleetConfig) (s : Run Fleet σ) :
    (∃ h userData t, Script c h userData ∧ (bootstrap c).run w s = (.returned userData, t) ∧ Asking s t h)
    ∨ ∃ path e t, c.bootstrapScript = some path ∧ (bootstrap c).run w s = (.failed (.system e), t)
      ∧ Asking s t [.asked (.file (.readText path)) (.error e)] := by
  unfold bootstrap
  cases hscript : c.bootstrapScript with
  | none => exact .inl ⟨[], "", s, .none hscript, rfl, .refl s⟩
  | some path =>
    have hask := Asking.ask w s (.file (.readText path))
    dsimp only
    rw [Program.run_andThen_of_returned (Program.run_request w _ s)]
    cases hanswer : s.reply w (.file (.readText path)) with
    | ok text =>
      rw [hanswer] at hask
      exact .inl ⟨_, text, _, .read hscript text, rfl, hask⟩
    | error e =>
      rw [hanswer] at hask
      exact .inr ⟨path, e, _, rfl, rfl, hask⟩

end Fleet

end CloudFleet
