import CloudFleet.Proofs.Fleet.Observing
import Mathlib.Data.List.Induction
import Mathlib.Data.String.Basic

/-!
# Images are looked up once

An `ImageLookup` is a question for the images of a region, with the answer. A lookup finds the newest image of an answer
that lists any (`ImageLookup.Finds`); a failed one finds nothing at all, not even that there is none.

A call goes through its regions in order (`Walk`): a region that is supplied when its turn comes is passed over, any
other is looked up, and what is found is kept before the next one. It ends at the first lookup that fails (`Handed`).
So a region is looked up only while it has no image (`Needed`), and has from then on what was found first (`Sought`).

Main statement, for all sequences of calls, every fleet and every world: `images_are_looked_up_once`.
-/

set_option autoImplicit false

namespace CloudFleet

variable {σ ε : Type}

/-! ## The newest image -/

namespace Cloud

/-- No image was created later, and none that is listed after it was created at the same time. -/
def Newest (images : List ImageRecord) (image : ImageRecord) : Prop :=
  ∃ before after, images = before ++ image :: after
    ∧ (∀ other ∈ before, other.created ≤ image.created) ∧ ∀ other ∈ after, other.created < image.created

section Newest

variable {images : List ImageRecord} {image : ImageRecord}

theorem latest?_concat (images : List ImageRecord) (image : ImageRecord) :
    latest? (images ++ [image]) = match latest? images with
      | none => some image
      | some best => if image.created < best.created then some best else some image := by
  rw [latest?, List.foldl_append]
  rfl

theorem latest?_eq_none_iff : latest? images = none ↔ images = [] := by
  constructor
  · intro h
    induction images using List.reverseRecOn with
    | nil => rfl
    | append_singleton images last =>
      rw [latest?_concat] at h
      split at h
      · cases h
      · split at h <;> cases h
  · rintro rfl
    rfl

/-- An older image listed last changes nothing. -/
theorem Newest.concat_older {last : ImageRecord} (h : Newest images image) (hold : last.created < image.created) :
    Newest (images ++ [last]) image := by
  obtain ⟨before, after, rfl, hbefore, hafter⟩ := h
  refine ⟨before, after ++ [last], by simp, hbefore, fun other ho => ?_⟩
  rcases List.mem_append.mp ho with ho | ho
  · exact hafter other ho
  · rw [List.mem_singleton.mp ho]
    exact hold

/-- One that is not older takes its place. -/
theorem Newest.concat_newer {last : ImageRecord} (h : Newest images image) (hnew : image.created ≤ last.created) :
    Newest (images ++ [last]) last := by
  obtain ⟨before, after, rfl, hbefore, hafter⟩ := h
  refine ⟨before ++ image :: after, [], rfl, fun other ho => ?_, by simp⟩
  rcases List.mem_append.mp ho with ho | ho
  · exact (hbefore other ho).trans hnew
  · rcases List.mem_cons.mp ho with rfl | ho
    · exact hnew
    · exact (hafter other ho).le.trans hnew

theorem newest_of_latest? (h : latest? images = some image) : Newest images image := by
  induction images using List.reverseRecOn generalizing image with
  | nil => cases h
  | append_singleton images last ih =>
    rw [latest?_concat] at h
    cases hbest : latest? images with
    | none =>
      rw [hbest] at h
      cases h
      rw [latest?_eq_none_iff.mp hbest]
      exact ⟨[], [], rfl, by simp, by simp⟩
    | some best =>
      rw [hbest] at h
      dsimp only at h
      split at h
      · rename_i hold
        cases h
        exact (ih hbest).concat_older hold
      · rename_i hnew
        cases h
        exact (ih hbest).concat_newer (not_lt.mp hnew)

/-- Of two newest images neither is listed before the other. -/
theorem Newest.not_earlier {i j : ImageRecord} {before after before' after' : List ImageRecord}
    (heq : before ++ i :: after = before' ++ j :: after') (hafter : ∀ other ∈ after, other.created < i.created)
    (hbefore' : ∀ other ∈ before', other.created ≤ j.created) {between : List ImageRecord}
    (hb : before' = before ++ between) : i = j := by
  subst hb
  rw [List.append_assoc, List.append_cancel_left_eq] at heq
  cases between with
  | nil => exact (List.cons.inj heq).1
  | cons x between =>
    obtain ⟨rfl, rfl⟩ := List.cons.inj heq
    have hle : i.created ≤ j.created := hbefore' i (by simp)
    have hlt : j.created < i.created := hafter j (by simp)
    exact absurd hlt (not_lt.mpr hle)

theorem Newest.unique {i j : ImageRecord} (hi : Newest images i) (hj : Newest images j) : i = j := by
  obtain ⟨before, after, rfl, hbefore, hafter⟩ := hi
  obtain ⟨before', after', heq, hbefore', hafter'⟩ := hj
  rcases List.append_eq_append_iff.mp heq with ⟨between, hb, -⟩ | ⟨between, hb, -⟩
  · exact Newest.not_earlier heq hafter hbefore' hb
  · exact (Newest.not_earlier heq.symm hafter' hbefore hb).symm

theorem latest?_eq_some_iff : latest? images = some image ↔ Newest images image := by
  refine ⟨newest_of_latest?, fun h => ?_⟩
  cases hlatest : latest? images with
  | none =>
    obtain ⟨before, after, heq, -⟩ := h
    rw [latest?_eq_none_iff.mp hlatest] at heq
    simp at heq
  | some best => rw [(newest_of_latest? hlatest).unique h]

-- of two that were created at the same time, the one listed last
example : latest? [⟨"a", "2020"⟩, ⟨"b", "2021"⟩, ⟨"c", "2021"⟩, ⟨"d", "2019"⟩] = some ⟨"c", "2021"⟩ := by decide

end Newest

end Cloud

namespace Fleet

/-! ## Lookups -/

/-- A question for the images of a region, with the answer. -/
structure ImageLookup where
  region : Region
  owner : String
  namePattern : String
  answer : Cloud.Answer (List ImageRecord)

namespace ImageLookup

def exchange (l : ImageLookup) : (r : Request) × r.Reply :=
  ⟨.cloud (.describeImages l.region l.owner l.namePattern), l.answer⟩

/-- The lookup that an exchange is, if it is one. -/
def of? : ((r : Request) × r.Reply) → Option ImageLookup
  | ⟨.cloud (.describeImages region owner namePattern), answer⟩ => some ⟨region, owner, namePattern, answer⟩
  | _ => none

/-- What a lookup finds: the newest of the images listed, or that there is none. A failed one finds neither. -/
def Finds (l : ImageLookup) : Option String → Prop
  | some image => ∃ images record, l.answer = .ok images ∧ Cloud.Newest images record ∧ record.id = image
  | none => l.answer = .ok []

/-- The image found, if any. -/
def found? (l : ImageLookup) : Option String :=
  match l.answer with
  | .ok images => (Cloud.latest? images).map ImageRecord.id
  | .error _ => none

variable {l : ImageLookup}

theorem found?_eq_some_iff {image : String} : l.found? = some image ↔ l.Finds (some image) := by
  unfold found? Finds
  cases l.answer with
  | error e => simp
  | ok images => simp [Option.map_eq_some_iff, Cloud.latest?_eq_some_iff]

theorem isSome_found?_iff : l.found?.isSome = true ↔ ∃ image, l.Finds (some image) := by
  rw [Option.isSome_iff_exists]
  simp only [found?_eq_some_iff]

/-- A lookup finds an image exactly if it succeeds with a list that is not empty. -/
theorem found?_eq_none_iff : l.found? = none ↔ ∀ images, l.answer = .ok images → images = [] := by
  unfold found?
  cases l.answer with
  | error e => simp
  | ok images => simp [Cloud.latest?_eq_none_iff]

/-- An answer that is no error finds exactly its latest image. -/
theorem finds_found? {images : List ImageRecord} (h : l.answer = .ok images) : l.Finds l.found? := by
  cases hfound : l.found? with
  | some image => exact found?_eq_some_iff.mp hfound
  | none =>
    rw [found?, h] at hfound
    rw [Finds, h, Cloud.latest?_eq_none_iff.mp (Option.map_eq_none_iff.mp hfound)]

end ImageLookup

/-- The lookups of images in a history. -/
def imageLookups (h : List (Happening Fleet)) : List ImageLookup := (questions h).filterMap ImageLookup.of?

theorem imageLookups_append (h k : List (Happening Fleet)) :
    imageLookups (h ++ k) = imageLookups h ++ imageLookups k := by
  rw [imageLookups, questions_append, List.filterMap_append]
  rfl

/-- The first image that some lookups found for a region. -/
def foundFor (ls : List ImageLookup) (region : Region) : Option String :=
  ls.findSome? fun l => if l.region = region then l.found? else none

theorem foundFor_append (ls ms : List ImageLookup) (region : Region) :
    foundFor (ls ++ ms) region = (foundFor ls region).or (foundFor ms region) := List.findSome?_append

theorem foundFor_singleton (l : ImageLookup) (region : Region) :
    foundFor [l] region = if l.region = region then l.found? else none := by
  rw [foundFor, List.findSome?_singleton]

/-- What is found for a region is what its first lookup with an image found. -/
theorem foundFor_eq_some_iff {ls : List ImageLookup} {region : Region} {image : String} :
    foundFor ls region = some image ↔ ∃ before l after, ls = before ++ l :: after ∧ l.region = region
      ∧ l.Finds (some image)
      ∧ ∀ earlier ∈ before, earlier.region = region → ∀ images, earlier.answer = .ok images → images = [] := by
  rw [foundFor, List.findSome?_eq_some_iff]
  constructor
  · rintro ⟨before, l, after, heq, hfound, hbefore⟩
    split at hfound
    · rename_i hregion
      refine ⟨before, l, after, heq, hregion, ImageLookup.found?_eq_some_iff.mp hfound, ?_⟩
      intro earlier he hearlier
      have hnone := hbefore earlier he
      rw [if_pos hearlier] at hnone
      exact ImageLookup.found?_eq_none_iff.mp hnone
    · cases hfound
  · rintro ⟨before, l, after, heq, hregion, hfinds, hbefore⟩
    refine ⟨before, l, after, heq, ?_, ?_⟩
    · rw [if_pos hregion]
      exact ImageLookup.found?_eq_some_iff.mpr hfinds
    · intro earlier he
      split
      · rename_i hearlier
        exact ImageLookup.found?_eq_none_iff.mpr (hbefore earlier he hearlier)
      · rfl

/-! ## Regions are looked up while they have no image -/

theorem image?_imageFound_eq (f : Fleet) (region other : Region) (image : String) :
    (f.apply (.imageFound region image)).image? other
      = (f.image? other).or (if region = other then some image else none) := by
  show (f.images ++ [(region, image)]).lookup other = _
  rw [List.lookup_append]
  by_cases h : region = other
  · simp [image?, h]
  · have hne : (other == region) = false := beq_eq_false_iff_ne.mpr (Ne.symm h)
    simp [image?, h, List.lookup_cons, List.lookup_nil, hne]

/-- Every region that is looked up has no image at that moment. -/
def Needed (f : Fleet) : List (Happening Fleet) → Prop
  | [] => True
  | .asked r reply :: h => (∀ l, ImageLookup.of? ⟨r, reply⟩ = some l → f.image? l.region = none) ∧ Needed f h
  | .changed c :: h => Needed (f.apply c) h

theorem needed_append {f : Fleet} {h k : List (Happening Fleet)} :
    Needed f (h ++ k) ↔ Needed f h ∧ Needed (replay f h) k := by
  induction h generalizing f with
  | nil => simp [Needed]
  | cons happening h ih =>
    cases happening with
    | asked r reply => simp [Needed, ih, and_assoc]
    | changed c => simp [Needed, ih]

/-- A region with an image is not looked up any more. -/
theorem Needed.region_ne {f : Fleet} {h : List (Happening Fleet)} (hn : Needed f h) {region : Region} {image : String}
    (hi : f.image? region = some image) : ∀ l ∈ imageLookups h, l.region ≠ region := by
  induction h generalizing f with
  | nil => intro l hl; cases hl
  | cons happening h ih =>
    cases happening with
    | asked r reply =>
      intro l hl
      rw [← List.singleton_append, imageLookups_append] at hl
      rcases List.mem_append.mp hl with hl | hl
      · rintro rfl
        obtain ⟨x, hx, hof⟩ := List.mem_filterMap.mp hl
        have hmem := mem_of_mem_questions hx
        cases List.mem_singleton.mp hmem
        rw [hn.1 l hof] at hi
        cases hi
      · exact ih hn.2 hi l hl
    | changed c => exact ih hn (image?_replay_of_eq hi [.changed c])

/-! ## What lookups leave behind -/

/-- From one run to another nothing but images was asked for, each region only while it had none, and what was found
first is kept. -/
structure Sought (s t : Run Fleet σ) (new : List (Happening Fleet)) : Prop where
  history_eq : t.history = s.history ++ new
  own_eq : t.own = replay s.own new
  instances_eq : t.own.instances = s.own.instances
  questions_eq : questions new = (imageLookups new).map ImageLookup.exchange
  needed : Needed s.own new
  image?_eq : ∀ region, t.own.image? region = (s.own.image? region).or (foundFor (imageLookups new) region)

namespace Sought

variable {s t u : Run Fleet σ} {h k : List (Happening Fleet)}

theorem refl (s : Run Fleet σ) : Sought s s [] :=
  ⟨by simp, rfl, rfl, rfl, trivial, fun region => (Option.or_none).symm⟩

theorem trans (hst : Sought s t h) (htu : Sought t u k) : Sought s u (h ++ k) := by
  refine ⟨?_, ?_, ?_, ?_, ?_, ?_⟩
  · rw [htu.history_eq, hst.history_eq, List.append_assoc]
  · rw [htu.own_eq, hst.own_eq, replay_append]
  · rw [htu.instances_eq, hst.instances_eq]
  · rw [questions_append, hst.questions_eq, htu.questions_eq, imageLookups_append, List.map_append]
  · rw [needed_append, ← hst.own_eq]
    exact ⟨hst.needed, htu.needed⟩
  · intro region
    rw [htu.image?_eq, hst.image?_eq, imageLookups_append, foundFor_append, Option.or_assoc]

/-- An image that is there stays, and its region is not looked up any more. -/
theorem stays (hst : Sought s t (h ++ k)) {region : Region} {image : String}
    (hi : (replay s.own h : Fleet).image? region = some image) :
    t.own.image? region = some image ∧ ∀ l ∈ imageLookups k, l.region ≠ region := by
  constructor
  · rw [hst.own_eq, replay_append]
    exact image?_replay_of_eq hi k
  · exact (needed_append.mp hst.needed).2.region_ne hi

end Sought

/-- The request that a lookup is. -/
def ImageLookup.request (l : ImageLookup) : Request := .cloud (.describeImages l.region l.owner l.namePattern)

section Steps

variable (w : World σ) {s : Run Fleet σ} {l : ImageLookup}

/-- A lookup that finds no image leaves nothing behind. -/
theorem sought_nothing (hanswer : s.reply w l.request = l.answer) (hnone : s.own.image? l.region = none)
    (hfound : l.found? = none) : Sought s (s.ask w l.request) [.asked l.request l.answer] := by
  have hlookups : imageLookups [(.asked l.request l.answer : Happening Fleet)] = [l] := rfl
  refine ⟨?_, rfl, rfl, rfl, ⟨?_, trivial⟩, fun region => ?_⟩
  · rw [Run.history_ask, hanswer]
  · intro m hm
    cases hm
    exact hnone
  · rw [hlookups, foundFor_singleton, hfound, ite_self, Option.or_none, Run.own_ask]

theorem sought_told (s : Run Fleet σ) (line : LogLine) :
    Sought s (s.ask w (.log line)) [.asked (.log line) ()] :=
  ⟨rfl, rfl, rfl, rfl, ⟨nofun, trivial⟩, fun _ => Option.or_none.symm⟩

/-- A lookup that finds an image, which is kept. -/
theorem sought_image (hanswer : s.reply w l.request = l.answer) (hnone : s.own.image? l.region = none) {image : String}
    (hfound : l.found? = some image) (line : LogLine) :
    Sought s (((s.ask w l.request).ask w (.log line)).change (Change.imageFound l.region image))
      [.asked l.request l.answer, .asked (.log line) (), .changed (Change.imageFound l.region image)] := by
  have hlookups : imageLookups [.asked l.request l.answer, .asked (.log line) (),
    (.changed (Change.imageFound l.region image) : Happening Fleet)] = [l] := rfl
  refine ⟨?_, rfl, rfl, rfl, ⟨?_, nofun, trivial⟩, fun region => ?_⟩
  · rw [Run.history_change, Run.history_ask, Run.history_ask, hanswer, List.append_assoc, List.append_assoc]
    rfl
  · intro m hm
    cases hm
    exact hnone
  · rw [hlookups, foundFor_singleton, hfound]
    exact image?_imageFound_eq s.own l.region region image

end Steps

/-! ## One call -/

/-- The region has an image, or one of these lookups found one for it. -/
def Supplied (f : Fleet) (ls : List ImageLookup) (region : Region) : Prop :=
  (f.image? region).isSome = true ∨ ∃ l ∈ ls, l.region = region ∧ ∃ image, l.Finds (some image)

/-- The regions were gone through in order: those that were supplied when their turn came were passed over, and all
others were looked up. -/
inductive Walk (f : Fleet) : List Region → List ImageLookup → Prop
  | nil : Walk f [] []
  | passed {regions : List Region} {ls : List ImageLookup} {region : Region} (walk : Walk f regions ls)
      (h : Supplied f ls region) : Walk f (regions ++ [region]) ls
  | asked {regions : List Region} {ls : List ImageLookup} (l : ImageLookup) (walk : Walk f regions ls)
      (h : ¬Supplied f ls l.region) : Walk f (regions ++ [l.region]) (ls ++ [l])

/-- How a call for the images of some regions is answered. Without a failure it has gone through all regions, and lists
the lookups with what each of them found; otherwise it has gone through the regions before one that was not supplied,
and whose lookup was the last one and failed. -/
def Handed (owner namePattern : String) (f : Fleet) (regions : List Region) (ls : List ImageLookup) :
    Cloud.Answer (List (Region × Option String)) → Prop
  | .ok found => Walk f regions ls ∧ List.Forall₂ (fun l entry => entry.1 = l.region ∧ l.Finds entry.2) ls found
  | .error e => ∃ before region after earlier, regions = before ++ region :: after ∧ Walk f before earlier
      ∧ (∀ l ∈ earlier, ∃ found, l.Finds found) ∧ ¬Supplied f earlier region
      ∧ ls = earlier ++ [⟨region, owner, namePattern, .error e⟩]

section Walks

variable {f g : Fleet} {region : Region} {regions : List Region} {l : ImageLookup} {ls : List ImageLookup}

/-- The fleet that remembers a lookup supplies a region as the fleet before does with that lookup. -/
theorem supplied_cons_iff (hg : ∀ r, g.image? r = (f.image? r).or (foundFor [l] r)) :
    Supplied g ls region ↔ Supplied f (l :: ls) region := by
  have hfirst : (g.image? region).isSome = true
      ↔ (f.image? region).isSome = true ∨ (l.region = region ∧ ∃ image, l.Finds (some image)) := by
    rw [hg, foundFor_singleton, Option.isSome_or, Bool.or_eq_true, ← ImageLookup.isSome_found?_iff]
    by_cases h : l.region = region <;> simp [h]
  rw [Supplied, Supplied, hfirst, List.exists_mem_cons_iff, or_assoc]

theorem Walk.pass_first (h : (f.image? region).isSome = true) (hw : Walk f regions ls) :
    Walk f (region :: regions) ls := by
  induction hw with
  | nil => exact .passed .nil (.inl h)
  | passed walk hs ih => exact .passed ih hs
  | asked m walk hs ih => exact .asked m ih hs

theorem Walk.ask_first (h : f.image? l.region = none) (hg : ∀ r, g.image? r = (f.image? r).or (foundFor [l] r))
    (hw : Walk g regions ls) : Walk f (l.region :: regions) (l :: ls) := by
  induction hw with
  | nil => exact .asked l .nil (by simp [Supplied, h])
  | passed walk hs ih => exact .passed ih ((supplied_cons_iff hg).mp hs)
  | asked m walk hs ih => exact .asked m ih fun hsupplied => hs ((supplied_cons_iff hg).mpr hsupplied)

variable {owner namePattern : String} {answer : Cloud.Answer (List (Region × Option String))}

theorem Handed.pass_first (h : (f.image? region).isSome = true) (ha : Handed owner namePattern f regions ls answer) :
    Handed owner namePattern f (region :: regions) ls answer := by
  cases answer with
  | ok found => exact ⟨ha.1.pass_first h, ha.2⟩
  | error e =>
    obtain ⟨before, failing, after, earlier, rfl, hwalk, hrest⟩ := ha
    exact ⟨region :: before, failing, after, earlier, rfl, hwalk.pass_first h, hrest⟩

/-- After a lookup that found an image or that there is none, the call goes on. -/
theorem Handed.ask_first (h : f.image? l.region = none) (hfound : l.Finds l.found?)
    (hg : ∀ r, g.image? r = (f.image? r).or (foundFor [l] r)) (ha : Handed owner namePattern g regions ls answer) :
    Handed owner namePattern f (l.region :: regions) (l :: ls) (answer.map ((l.region, l.found?) :: ·)) := by
  cases answer with
  | ok found => exact ⟨ha.1.ask_first h hg, .cons ⟨rfl, hfound⟩ ha.2⟩
  | error e =>
    obtain ⟨before, failing, after, earlier, rfl, hwalk, hfinds, hs, rfl⟩ := ha
    refine ⟨l.region :: before, failing, after, l :: earlier, rfl, hwalk.ask_first h hg, ?_, ?_, rfl⟩
    · intro m hm
      rcases List.mem_cons.mp hm with rfl | hm
      · exact ⟨_, hfound⟩
      · exact hfinds m hm
    · exact fun hsupplied => hs ((supplied_cons_iff hg).mpr hsupplied)

end Walks

/-- What a call for the images of some regions comes to, from the run it is made in. -/
def Delivers (owner namePattern : String) (regions : List Region) (s : Run Fleet σ)
    (outcome : Ending ε (Cloud.Answer (List (Region × Option String))) × Run Fleet σ) : Prop :=
  ∃ answer t new, outcome = (.returned answer, t) ∧ Sought s t new
    ∧ Handed owner namePattern s.own regions (imageLookups new) answer
    ∧ ∀ l ∈ imageLookups new, l.owner = owner ∧ l.namePattern = namePattern

section Calls

variable (w : World σ) {s u : Run Fleet σ} {owner namePattern : String} {regions : List Region} {l : ImageLookup}
  {here : List (Happening Fleet)}

/-- A lookup that fails ends the call. -/
theorem Delivers.of_failed {region : Region} {e : CloudError} (hnone : s.own.image? region = none)
    (hreply : s.reply w (.cloud (.describeImages region owner namePattern)) = .error e) :
    Delivers (ε := ε) owner namePattern (region :: regions) s
      (.returned (.error e), s.ask w (.cloud (.describeImages region owner namePattern))) := by
  let l : ImageLookup := ⟨region, owner, namePattern, .error e⟩
  have hlookups : imageLookups [(.asked l.request l.answer : Happening Fleet)] = [l] := rfl
  refine ⟨.error e, _, _, rfl, sought_nothing w (l := l) hreply hnone rfl, ?_, ?_⟩
  · rw [hlookups]
    exact ⟨[], region, regions, [], rfl, .nil, by simp, by simp [Supplied, hnone], rfl⟩
  · rw [hlookups]
    intro m hm
    rw [List.mem_singleton.mp hm]
    exact ⟨rfl, rfl⟩

/-- After a lookup that did not fail, the call goes on with the other regions. -/
theorem Delivers.goes_on (howner : l.owner = owner ∧ l.namePattern = namePattern)
    (hnone : s.own.image? l.region = none) (hfinds : l.Finds l.found?) (hs : Sought s u here)
    (hlookups : imageLookups here = [l])
    (h : Delivers owner namePattern regions u ((findImages owner namePattern regions : Program Fleet ε _).run w u)) :
    Delivers owner namePattern (l.region :: regions) s
      ((findOthers owner namePattern (l.region, l.found?) regions : Program Fleet ε _).run w u) := by
  obtain ⟨answer, t, new, hrun, hsought, hhanded, hcalls⟩ := h
  have hothers : (findOthers owner namePattern (l.region, l.found?) regions : Program Fleet ε _).run w u
      = (.returned (answer.map ((l.region, l.found?) :: ·)), t) := by
    rw [findOthers, Program.run_andThen_of_returned hrun]
    cases answer <;> rfl
  have hall : imageLookups (here ++ new) = l :: imageLookups new := by
    rw [imageLookups_append, hlookups]
    rfl
  have hkept : ∀ r, u.own.image? r = (s.own.image? r).or (foundFor [l] r) := by
    intro r
    rw [hs.image?_eq, hlookups]
  refine ⟨_, t, here ++ new, hothers, hs.trans hsought, ?_, ?_⟩
  · rw [hall]
    exact hhanded.ask_first hnone hfinds hkept
  · rw [hall]
    intro m hm
    rcases List.mem_cons.mp hm with rfl | hm
    · exact howner
    · exact hcalls m hm

/-- Every call is answered. -/
theorem delivers_findImages (owner namePattern : String) (regions : List Region) (s : Run Fleet σ) :
    Delivers owner namePattern regions s ((findImages owner namePattern regions : Program Fleet ε _).run w s) := by
  induction regions generalizing s with
  | nil => exact ⟨.ok [], s, [], rfl, .refl s, ⟨.nil, .nil⟩, fun l hl => nomatch hl⟩
  | cons region regions ih =>
    rw [findImages, Program.run_andThen_of_returned (Program.run_memory w s)]
    by_cases hknown : (s.own.image? region).isSome = true
    · rw [if_pos hknown]
      obtain ⟨answer, t, new, hrun, hsought, hanswer, hcalls⟩ := ih s
      exact ⟨answer, t, new, hrun, hsought, hanswer.pass_first hknown, hcalls⟩
    · have hnone : s.own.image? region = none := by simpa using hknown
      rw [if_neg hknown, Cloud.call, Program.run_andThen_of_returned (Program.run_request w _ s)]
      cases hreply : s.reply w (.cloud (.describeImages region owner namePattern)) with
      | error e => exact .of_failed w hnone hreply
      | ok images =>
        let l : ImageLookup := ⟨region, owner, namePattern, .ok images⟩
        have hfinds : l.Finds l.found? := ImageLookup.finds_found? rfl
        let line : LogLine := ⟨.debug, s!"image for {region.name}: {Text.quotedOption l.found?}"⟩
        let told : Run Fleet σ := (s.ask w l.request).ask w (.log line)
        show Delivers owner namePattern (region :: regions) s
          ((match l.found? with
            | some image => (Program.remember (Change.imageFound region image) : Program Fleet ε Unit) >>= fun _ =>
              findOthers owner namePattern (region, l.found?) regions
            | none => findOthers owner namePattern (region, l.found?) regions).run w told)
        cases hfound : l.found? with
        | none =>
          have hs := (sought_nothing w (l := l) hreply hnone hfound).trans (sought_told w _ line)
          have hrest := Delivers.goes_on (ε := ε) w ⟨rfl, rfl⟩ hnone hfinds hs rfl (ih told)
          rwa [hfound] at hrest
        | some image =>
          have hs := sought_image w (l := l) hreply hnone hfound line
          have hrest := Delivers.goes_on (ε := ε) w ⟨rfl, rfl⟩ hnone hfinds hs rfl (ih _)
          rwa [hfound] at hrest

end Calls

/-! ## Many calls -/

/-- A call for the images of some regions. -/
structure ImageCall where
  owner : String
  namePattern : String
  regions : List Region

def ImageCall.perform (c : ImageCall) : Program Fleet ε (Cloud.Answer (List (Region × Option String))) :=
  findImages c.owner c.namePattern c.regions

/-- A call that was made: its answer, and what was added to the history for it. -/
structure ImageCall.Made extends ImageCall where
  answer : Cloud.Answer (List (Region × Option String))
  events : List (Happening Fleet)

/-- What a fleet remembers when a call that was made is answered as it should be. -/
def ImageCall.Made.Served (f : Fleet) (m : ImageCall.Made) : Prop :=
  Handed m.owner m.namePattern f m.regions (imageLookups m.events) m.answer
    ∧ ∀ l ∈ imageLookups m.events, l.owner = m.owner ∧ l.namePattern = m.namePattern

theorem run_imageCalls (w : World σ) (calls : List ImageCall) (s : Run Fleet σ) :
    ∃ (made : List ImageCall.Made) (t : Run Fleet σ),
      (Program.collect ImageCall.perform calls : Program Fleet ε _).run w s = (.returned (made.map (·.answer)), t)
      ∧ made.map (·.toImageCall) = calls ∧ Sought s t (made.flatMap (·.events))
      ∧ ∀ earlier m later, made = earlier ++ m :: later → m.Served (replay s.own (earlier.flatMap (·.events))) := by
  induction calls generalizing s with
  | nil => exact ⟨[], s, rfl, rfl, .refl s, by simp⟩
  | cons call calls ih =>
    obtain ⟨answer, u, here, hrun, hsought, hserved⟩ :=
      delivers_findImages (ε := ε) w call.owner call.namePattern call.regions s
    obtain ⟨made, t, hruns, hmade, hsoughts, hall⟩ := ih u
    refine ⟨⟨call, answer, here⟩ :: made, t, ?_, by rw [List.map_cons, hmade], ?_, ?_⟩
    · have hcall : (call.perform : Program Fleet ε _).run w s = (.returned answer, u) := hrun
      rw [Program.collect, Program.run_andThen_of_returned hcall, Program.run_andThen_of_returned hruns]
      rfl
    · rw [List.flatMap_cons]
      exact hsought.trans hsoughts
    · intro earlier m later heq
      cases earlier with
      | nil =>
        cases heq
        exact hserved
      | cons first earlier =>
        obtain ⟨rfl, hrest⟩ := List.cons.inj heq
        rw [List.flatMap_cons, replay_append, ← hsought.own_eq]
        exact hall earlier m later hrest

/-- However often images are asked for, and whatever the answers are: every call is answered as `Handed` says; an image
that is there at any moment stays, and its region is not looked up any more; and a region that had none has in the end
the newest image of the first answer for it that lists any. -/
theorem images_are_looked_up_once (w : World σ) (calls : List ImageCall) (s : Run Fleet σ) :
    ∃ (made : List ImageCall.Made) (t : Run Fleet σ) (new : List (Happening Fleet)),
      (Program.collect ImageCall.perform calls : Program Fleet ε _).run w s = (.returned (made.map (·.answer)), t)
      ∧ made.map (·.toImageCall) = calls ∧ new = made.flatMap (·.events)
      ∧ t.history = s.history ++ new ∧ t.own = replay s.own new ∧ t.own.instances = s.own.instances
      ∧ questions new = (imageLookups new).map ImageLookup.exchange
      ∧ (∀ earlier m later, made = earlier ++ m :: later → m.Served (replay s.own (earlier.flatMap (·.events))))
      ∧ (∀ past more, new = past ++ more → ∀ region image, (replay s.own past : Fleet).image? region = some image →
        t.own.image? region = some image ∧ ∀ l ∈ imageLookups more, l.region ≠ region)
      ∧ ∀ region, s.own.image? region = none → ∀ image, t.own.image? region = some image
        ↔ ∃ before l after, imageLookups new = before ++ l :: after ∧ l.region = region ∧ l.Finds (some image)
          ∧ ∀ earlier ∈ before, earlier.region = region → ∀ images, earlier.answer = .ok images → images = [] := by
  obtain ⟨made, t, hrun, hmade, hsought, hserved⟩ := run_imageCalls w calls s
  refine ⟨made, t, _, hrun, hmade, rfl, hsought.history_eq, hsought.own_eq, hsought.instances_eq, hsought.questions_eq,
    hserved, ?_, ?_⟩
  · intro past more hnew region image himage
    rw [hnew] at hsought
    exact hsought.stays himage
  · intro region hnone image
    rw [hsought.image?_eq, hnone, Option.none_or, foundFor_eq_some_iff]

end Fleet

end CloudFleet
