import CloudFleet.Proofs.Bench.Course
import Mathlib.Data.Set.Card

/-!
# The logs that are kept

`drive text w` is a world like `w` with local files: a copy from a host that succeeds leaves there what the host holds,
in the place of what was there. Downloading logs that returns has copied each log file of each host once, in order, and
nothing else (`Bench.copies_of_downloadLogs`). A copy is named after the host and the last segment of the remote path;
each of them is still there in the end exactly if no two have the same name
(`Bench.downloads_keep_every_log_iff`).
-/

set_option autoImplicit false

namespace CloudFleet

variable {σ τ ε α : Type}

/-! ## Local files -/

/-- A copy of a file of a host. -/
structure Copy where
  host : String
  remote : String
  /-- Where it was put. -/
  path : Path
  text : String

/-- What was copied, and where it was put. -/
def Copy.what (copy : Copy) : String × String × Path := (copy.host, copy.remote, copy.path)

/-- Local files, in the surroundings of a world. -/
structure Drive (σ : Type) where
  /-- What a file holds, if there is one. -/
  files : Path → Option String
  /-- The copies that came, first ones first. -/
  copies : List Copy
  rest : σ

/-- The files when copies have come, each in the place of what was there. -/
def filled (files : Path → Option String) (copies : List Copy) : Path → Option String :=
  copies.foldl (fun files copy path => if path = copy.path then some copy.text else files path) files

/-- What was copied, and where it was put, if a copy succeeded. -/
def copied? : Exchange → Option (String × String × Path)
  | ⟨.shell (.copyFrom host remote path), .ok _⟩ => some (host, remote, path)
  | _ => none

/-- The copy that comes of an answered request, where hosts hold such texts. -/
def copy? (text : String → String → String) (e : Exchange) : Option Copy :=
  (copied? e).map fun x => ⟨x.1, x.2.1, x.2.2, text x.1 x.2.1⟩

/-- A world like another one, with local files that copies come to. `text` is what a host holds under a remote path. -/
def drive (text : String → String → σ → String) (w : World σ) : World (Drive σ) where
  answer r d :=
    let (reply, rest) := w.answer r d.rest
    let copies := (copy? (fun host remote => text host remote d.rest) ⟨r, reply⟩).toList
    (reply, ⟨filled d.files copies, d.copies ++ copies, rest⟩)

theorem filled_append (files : Path → Option String) (copies later : List Copy) :
    filled files (copies ++ later) = filled (filled files copies) later := List.foldl_append

/-- Where no copy was put, there is what was there before. -/
theorem filled_of_not_mem {files : Path → Option String} {copies : List Copy} {path : Path}
    (h : path ∉ copies.map Copy.path) : filled files copies path = files path := by
  induction copies generalizing files with
  | nil => rfl
  | cons copy copies ih =>
    rw [List.map_cons, List.mem_cons, not_or] at h
    show filled (fun path => if path = copy.path then some copy.text else files path) copies path = _
    rw [ih h.2, if_neg h.1]

/-- Where a copy was put, there is a file. -/
theorem filled_isSome_of_mem {files : Path → Option String} {copies : List Copy} {path : Path}
    (h : path ∈ copies.map Copy.path) : filled files copies path ≠ none := by
  induction copies generalizing files with
  | nil => cases h
  | cons copy copies ih =>
    show filled (fun path => if path = copy.path then some copy.text else files path) copies path ≠ none
    by_cases hlater : path ∈ copies.map Copy.path
    · exact ih hlater
    · rw [filled_of_not_mem hlater, if_pos ((List.mem_cons.mp h).resolve_right hlater)]
      exact Option.some_ne_none _

/-- A copy is still there if no two were put in one place. -/
theorem filled_of_nodup {files : Path → Option String} {copies : List Copy} (hnodup : (copies.map Copy.path).Nodup)
    {copy : Copy} (h : copy ∈ copies) : filled files copies copy.path = some copy.text := by
  induction copies generalizing files with
  | nil => cases h
  | cons first copies ih =>
    rw [List.map_cons, List.nodup_cons] at hnodup
    show filled (fun path => if path = first.path then some first.text else files path) copies copy.path = _
    rcases List.mem_cons.mp h with rfl | hlater
    · rw [filled_of_not_mem hnodup.1, if_pos rfl]
    · exact ih hnodup.2 hlater

theorem map_what_copy? (text : String → String → String) (e : Exchange) :
    (copy? text e).toList.map Copy.what = (copied? e).toList := by
  unfold copy?
  cases copied? e <;> rfl

theorem copied?_of_local (e : Exchange) (h : e.1.reaches = false) : copied? e = none := by
  unfold copied?
  split
  · cases h
  · rfl

/-- Whatever is run, the copies that come are those that succeed, and nothing else changes the files. -/
theorem run_drive [Memory τ] (text : String → String → σ → String) (w : World σ) (p : Program τ ε α)
    (s : Run τ (Drive σ)) :
    ∃ new, (p.run (drive text w) s).2.history = s.history ++ new
      ∧ ∃ copies, (p.run (drive text w) s).2.world.copies = s.world.copies ++ copies
        ∧ (p.run (drive text w) s).2.world.files = filled s.world.files copies
        ∧ copies.map Copy.what = (effects new).filterMap copied? := by
  refine Program.grows_of_steps (I := fun new (t : Run τ (Drive σ)) => ∃ copies,
    t.world.copies = s.world.copies ++ copies ∧ t.world.files = filled s.world.files copies
    ∧ copies.map Copy.what = (effects new).filterMap copied?) ?_ ?_ p ⟨[], (List.append_nil _).symm, rfl, rfl⟩
  · rintro r new t ⟨copies, hcopies, hfiles, hwhat⟩
    let come := (copy? (fun host remote => text host remote t.world.rest) ⟨r, t.reply (drive text w) r⟩).toList
    have hcome : come.map Copy.what
        = (effects [(.asked r (t.reply (drive text w) r) : Happening τ)]).filterMap copied? :=
      (map_what_copy? _ _).trans (filterMap_effects_asked copied?_of_local r _).symm
    refine ⟨copies ++ come, ?_, ?_, ?_⟩
    · rw [← List.append_assoc, ← hcopies]
      rfl
    · rw [filled_append, ← hfiles]
      rfl
    · rw [List.map_append, effects_append, List.filterMap_append, hwhat, hcome]
  · rintro change new t ⟨copies, hcopies, hfiles, hwhat⟩
    refine ⟨copies, hcopies, hfiles, ?_⟩
    rw [hwhat, effects_append]
    exact congrArg _ (List.append_nil _).symm

/-! ## What a download copies -/

namespace Bench

open Program (Ensures)
open Session (fetched copyPath)

/-- Every host with every log file, in the order in which they are copied. -/
def pairs (hosts files : List String) : List (String × String) :=
  files.flatMap fun remote => hosts.map fun host => (host, remote)

theorem pairs_cons (hosts : List String) (remote : String) (files : List String) :
    pairs hosts (remote :: files) = hosts.map (fun host => (host, remote)) ++ pairs hosts files := List.flatMap_cons

theorem length_pairs (hosts files : List String) : (pairs hosts files).length = hosts.length * files.length := by
  simp [pairs, List.length_flatMap, Nat.mul_comm]

/-- Where a file was copied from all hosts, it was copied from each of them, in order. -/
theorem copied_of_fetched {hosts : List String} {remote : String} {dir : Path} {h : List Exchange}
    (hf : fetched hosts remote dir h (some ())) :
    h.filterMap copied? = hosts.map fun host => (host, remote, copyPath dir host remote) := by
  obtain ⟨answers, calls, late, rfl, hcalls, hdemand⟩ := Course.bind_some_iff.mp hf
  obtain ⟨rfl, hall⟩ := Course.demand_some_iff.mp hdemand
  obtain ⟨hlength, rfl⟩ := Course.collect_some
    (fun (host : String) (answer : Except TransportError Unit) =>
      ⟨.shell (.copyFrom host remote (copyPath dir host remote)), answer⟩) (fun _ _ _ ha => ha) _ hcalls
  have hcopied : ∀ x ∈ hosts.zip answers,
      copied? ⟨.shell (.copyFrom x.1 remote (copyPath dir x.1 remote)), x.2⟩
        = some (x.1, remote, copyPath dir x.1 remote) := by
    rintro ⟨host, answer⟩ hx
    cases answer with
    | ok _ => rfl
    | error e => cases List.all_eq_true.mp hall _ hx
  calc _ = (hosts.zip answers).filterMap fun x =>
        copied? ⟨.shell (.copyFrom x.1 remote (copyPath dir x.1 remote)), x.2⟩ := by
          rw [List.append_nil, List.filterMap_map]
          rfl
    _ = (hosts.zip answers).map fun x => (x.1, remote, copyPath dir x.1 remote) := by
          rw [← List.filterMap_eq_map]
          exact List.filterMap_congr hcopied
    _ = ((hosts.zip answers).map Prod.fst).map fun host => (host, remote, copyPath dir host remote) := by
          rw [List.map_map]
          rfl
    _ = _ := by rw [List.map_fst_zip (Nat.le_of_eq hlength.symm)]

/-- Where all files were copied, each was copied from each host, in order. -/
theorem copied_of_fetchedEach {hosts files : List String} {dir : Path} {h : List Exchange}
    (hf : Course.each (fun remote => fetched hosts remote dir) files h (some ())) :
    h.filterMap copied? = (pairs hosts files).map fun x => (x.1, x.2, copyPath dir x.1 x.2) := by
  induction files generalizing h with
  | nil =>
    obtain ⟨rfl, -⟩ := hf
    rfl
  | cons remote files ih =>
    obtain ⟨_, first, rest, rfl, hfirst, hrest⟩ := Course.bind_some_iff.mp hf
    rw [List.filterMap_append, copied_of_fetched hfirst, ih hrest, pairs_cons, List.map_append, List.map_map]
    rfl

/-- Without hosts nothing is downloaded, if there is anything to download. -/
theorem logFiles_of_unbound (w : World σ) (c : BenchConfig) (name : String) {s : Run Session σ}
    (hnone : s.own.hosts = []) :
    Ensures w (downloadLogs c name) s (fun _ _ => c.logFiles = []) fun _ _ => True := by
  have hcopy : ∀ (context remote : String) (dir : Path) (t : Run Session σ), t.own.hosts = [] →
      Ensures w (Program.within context (Program.reportRemote (Session.copyFrom remote dir)) : BenchProgram (List Path))
        t (fun _ _ => False) fun _ _ => True := by
    intro context remote dir t ht
    have hraise : Ensures w (Session.copyFrom remote dir) t (fun _ _ => False) fun _ _ => True := by
      refine .consult ?_
      rw [if_pos (by rw [ht]; rfl)]
      exact .raise trivial
    have hreported : Ensures w (Program.reportRemote (Session.copyFrom remote dir)) t (fun _ _ => False)
        fun _ _ => True := hraise.mapError fun _ _ _ => trivial
    exact hreported.mapError fun _ _ _ => trivial
  have heach : ∀ (dir : Path) (t : Run Session σ), t.own.hosts = [] →
      Ensures w (downloadEach dir c.logFiles) t (fun _ _ => c.logFiles = []) fun _ _ => True := by
    intro dir t ht
    cases c.logFiles with
    | nil => exact .pure rfl
    | cons remote files =>
      refine .consult (.ask ?_)
      exact (hcopy _ remote dir (t.ask w _) ht).bind fun _ _ hcopied => hcopied.elim
  have hmake : ∀ dir : Path, Program.Keeps w (fun t : Run Session σ => t.own.hosts = [])
      (Program.within s!"create {dir}" (Program.reportFile (.createDirs dir)) : BenchProgram Unit) := by
    intro dir
    refine (Program.Keeps.bind (.request fun _ ht => ht) fun answer => ?_).mapError
    cases answer <;> exact .finish _
  unfold downloadLogs
  refine ((Ensures.of_keeps (hmake _) hnone).mono (fun _ _ ht => ht) fun _ _ _ => trivial).bind fun _ t ht => ?_
  refine .ask ?_
  exact (heach _ (t.ask w _) ht).bind fun _ _ hfiles => .ask (.pure hfiles)

/-- A download that returns has copied each log file of each host, once and in order, and nothing else. -/
theorem copies_of_downloadLogs (text : String → String → σ → String) (w : World σ) (c : BenchConfig) (name : String)
    {s t : Run Session (Drive σ)} {dir : Path} (h : (downloadLogs c name).run (drive text w) s = (.returned dir, t)) :
    dir = Path.join c.dataDir name ∧ (c.logFiles ≠ [] → s.own.hosts ≠ [])
      ∧ ∃ copies, t.world.copies = s.world.copies ++ copies ∧ t.world.files = filled s.world.files copies
        ∧ copies.map Copy.what
          = (pairs s.own.hosts c.logFiles).map fun x => (x.1, x.2, copyPath dir x.1 x.2) := by
  have hhosts : c.logFiles ≠ [] → s.own.hosts ≠ [] := fun hfiles hnone =>
    hfiles ((logFiles_of_unbound (drive text w) c name hnone).of_returned h)
  obtain ⟨new, hh, hcourse, -⟩ := follows_downloadLogs (w := drive text w) c name hhosts ⟨rfl, rfl⟩
  obtain ⟨new', hh', copies, hcopies, hfiles, hwhat⟩ := run_drive text w (downloadLogs c name) s
  rw [h] at hh hcourse hh' hcopies hfiles
  obtain rfl : new = new' := List.append_cancel_left (hh.symm.trans hh')
  obtain ⟨_, made, late, heffects, hmade, hrest⟩ := Course.bind_some_iff.mp hcourse
  obtain ⟨_, each, last, rfl, heach, rfl, hdir⟩ := Course.bind_some_iff.mp hrest
  cases hdir
  refine ⟨rfl, hhosts, copies, hcopies, hfiles, ?_⟩
  have hnone : made.filterMap copied? = [] := by
    obtain ⟨reply, before, after, rfl, ⟨_, rfl, -⟩, hafter⟩ := Course.bind_some_iff.mp hmade
    cases reply <;> (obtain ⟨rfl, -⟩ := hafter; rfl)
  rw [hwhat, heffects, List.filterMap_append, List.append_nil, hnone, List.nil_append]
  exact copied_of_fetchedEach heach

/-! ## The names of copies -/

/-- Below a directory, different names are different paths. -/
theorem join_inj {dir a b : Path} (ha : a.startsWith "/" = false) (hb : b.startsWith "/" = false) :
    Path.join dir a = Path.join dir b ↔ a = b := by
  refine ⟨fun h => ?_, fun h => h ▸ rfl⟩
  unfold Path.join at h
  rw [ha, hb, if_neg Bool.false_ne_true, if_neg Bool.false_ne_true] at h
  rw [← String.toList_inj] at h ⊢
  split at h
  · rw [String.toList_append, String.toList_append] at h
    exact List.append_cancel_left h
  · rw [String.toList_append, String.toList_append (t := b)] at h
    exact List.append_cancel_left h

/-- A host whose name can be told from what follows it in the name of a copy. -/
def PlainHost (host : String) : Prop := '_' ∉ host.toList ∧ '/' ∉ host.toList

instance (host : String) : Decidable (PlainHost host) := inferInstanceAs (Decidable (_ ∧ _))

theorem not_startsWith_of_plainHost {host : String} (h : PlainHost host) (rest : String) :
    (host ++ "_" ++ rest).startsWith "/" = false := by
  rw [Bool.eq_false_iff, ne_eq, String.startsWith_string_iff, String.toList_append, String.toList_append,
    List.append_assoc]
  intro hprefix
  cases hhost : host.toList with
  | nil =>
    rw [hhost] at hprefix
    exact absurd (List.cons_prefix_cons.mp hprefix).1 (by decide)
  | cons first others =>
    rw [hhost] at hprefix
    have hslash : '/' = first := (List.cons_prefix_cons.mp hprefix).1
    exact h.2 (hhost ▸ hslash ▸ List.mem_cons_self)

/-- What stands before the first mark, and what behind it. -/
theorem append_mark_inj {mark : Char} {xs ys as bs : List Char} (hx : mark ∉ xs) (hy : mark ∉ ys) :
    xs ++ mark :: as = ys ++ mark :: bs ↔ xs = ys ∧ as = bs := by
  induction xs generalizing ys with
  | nil =>
    cases ys with
    | nil => simp
    | cons y ys =>
      have hne : mark ≠ y := fun h => hy (h ▸ List.mem_cons_self)
      simp [hne]
  | cons x xs ih =>
    have hne : x ≠ mark := fun h => hx (h ▸ List.mem_cons_self)
    cases ys with
    | nil => simp [hne]
    | cons y ys =>
      have hrest := ih (fun h => hx (List.mem_cons_of_mem _ h)) fun h => hy (List.mem_cons_of_mem y h)
      simp only [List.cons_append, List.cons.injEq, hrest, and_assoc]

/-- The name of a copy tells the host and the last segment of the remote path. -/
theorem copyPath_inj {dir : Path} {host host' remote remote' : String} (h : PlainHost host) (h' : PlainHost host') :
    copyPath dir host remote = copyPath dir host' remote'
      ↔ host = host' ∧ Path.lastSegment remote = Path.lastSegment remote' := by
  unfold copyPath
  rw [join_inj (not_startsWith_of_plainHost h _) (not_startsWith_of_plainHost h' _), ← String.toList_inj]
  simp only [String.toList_append, List.append_assoc]
  have hsep : "_".toList = ['_'] := by decide
  rw [hsep, List.singleton_append, List.singleton_append, append_mark_inj h.1 h'.1, String.toList_inj,
    String.toList_inj]

theorem mem_pairs {hosts files : List String} {x : String × String} :
    x ∈ pairs hosts files ↔ x.1 ∈ hosts ∧ x.2 ∈ files := by
  obtain ⟨host, remote⟩ := x
  simp [pairs, and_comm]

/-- Pairs of distinct hosts are distinct exactly if what they are paired with is. -/
theorem nodup_pairs_iff {hosts files : List String} (hhosts : hosts.Nodup) (hsome : files ≠ [] → hosts ≠ []) :
    (pairs hosts files).Nodup ↔ files.Nodup := by
  induction files with
  | nil => exact iff_of_true List.nodup_nil List.nodup_nil
  | cons remote files ih =>
    have hne := hsome (List.cons_ne_nil _ _)
    have hfirst : (hosts.map fun host => (host, remote)).Nodup :=
      List.Nodup.map (fun _ _ h => congrArg Prod.fst h) hhosts
    have hapart : (∀ a ∈ hosts.map (fun host => (host, remote)), ∀ b ∈ pairs hosts files, a ≠ b) ↔ remote ∉ files := by
      constructor
      · intro h hm
        obtain ⟨host, hhost⟩ := List.exists_mem_of_ne_nil hosts hne
        exact h (host, remote) (List.mem_map_of_mem hhost) (host, remote) (mem_pairs.mpr ⟨hhost, hm⟩) rfl
      · rintro h a ha b hb rfl
        obtain ⟨host, -, rfl⟩ := List.mem_map.mp ha
        exact h (mem_pairs.mp hb).2
    rw [pairs_cons, List.nodup_append, List.nodup_cons, ih fun _ => hne, hapart]
    exact ⟨fun h => ⟨h.2.2, h.2.1⟩, fun h => ⟨hfirst, h.2, h.1⟩⟩

/-- Copies from plain hosts have distinct names exactly if the last segments of the log files are distinct. -/
theorem nodup_copyPaths_iff {dir : Path} {hosts files : List String} (hhosts : hosts.Nodup)
    (hplain : ∀ host ∈ hosts, PlainHost host) (hsome : files ≠ [] → hosts ≠ []) :
    ((pairs hosts files).map fun x => copyPath dir x.1 x.2).Nodup ↔ (files.map Path.lastSegment).Nodup := by
  have hsegments : (pairs hosts files).map (fun x => (x.1, Path.lastSegment x.2))
      = pairs hosts (files.map Path.lastSegment) := by
    simp [pairs, List.map_flatMap, List.flatMap_map, Function.comp_def]
  have hsome' : files.map Path.lastSegment ≠ [] → hosts ≠ [] := fun h => hsome fun hnil => h (by rw [hnil]; rfl)
  rw [← nodup_pairs_iff hhosts hsome', ← hsegments]
  -- two copies have one name exactly if they have the host and the last segment in common
  have hsame : ∀ x ∈ pairs hosts files, ∀ y ∈ pairs hosts files, copyPath dir x.1 x.2 = copyPath dir y.1 y.2
      ↔ (x.1, Path.lastSegment x.2) = (y.1, Path.lastSegment y.2) := by
    intro x hx y hy
    rw [copyPath_inj (hplain x.1 (mem_pairs.mp hx).1) (hplain y.1 (mem_pairs.mp hy).1), Prod.mk.injEq]
  rw [List.Nodup, List.Nodup, List.pairwise_map, List.pairwise_map]
  exact List.Pairwise.iff_of_mem fun hx hy => not_congr (hsame _ hx _ hy)

/-! ## Every copy is kept -/

/-- Each copy has a file of its own that was not there before, and it holds what was copied. -/
structure Kept (before after : Path → Option String) (copies : List Copy) : Prop where
  holds : ∀ copy ∈ copies, after copy.path = some copy.text
  count : {path | before path = none ∧ after path ≠ none}.ncard = copies.length

theorem kept_iff {before : Path → Option String} {copies : List Copy}
    (hnone : ∀ copy ∈ copies, before copy.path = none) :
    Kept before (filled before copies) copies ↔ (copies.map Copy.path).Nodup := by
  have hnew : {path | before path = none ∧ filled before copies path ≠ none} = (copies.map Copy.path).toFinset := by
    ext path
    rw [Set.mem_ofPred_eq, Finset.mem_coe, List.mem_toFinset]
    constructor
    · rintro ⟨hbefore, hafter⟩
      by_contra hm
      exact hafter ((filled_of_not_mem hm).trans hbefore)
    · intro hm
      obtain ⟨copy, hcopy, rfl⟩ := List.mem_map.mp hm
      exact ⟨hnone copy hcopy, filled_isSome_of_mem hm⟩
  constructor
  · intro h
    have hcount := h.count
    rw [hnew, Set.ncard_coe_finset, List.card_toFinset] at hcount
    have hlength : (copies.map Copy.path).dedup.length = (copies.map Copy.path).length :=
      hcount.trans (List.length_map _).symm
    exact List.dedup_eq_self.mp ((List.dedup_sublist _).eq_of_length hlength)
  · intro h
    refine ⟨fun copy hcopy => filled_of_nodup h hcopy, ?_⟩
    rw [hnew, Set.ncard_coe_finset, List.toFinset_card_of_nodup h, List.length_map]

/-- **Every log is kept, if no two copies have one name.** A download that returns has copied each log file of each host
once, in order, and changed no other file. Where none of these files was there before, each copy has a file of its own
that holds what was copied exactly if their names are distinct. With hosts whose names hold neither an underscore nor a
slash, this is so exactly if the last segments of the log files are distinct. -/
theorem downloads_keep_every_log_iff (text : String → String → σ → String) (w : World σ) (c : BenchConfig)
    (name : String) {s t : Run Session (Drive σ)} {dir : Path}
    (hempty : ∀ host ∈ s.own.hosts, ∀ remote ∈ c.logFiles,
      s.world.files (copyPath (Path.join c.dataDir name) host remote) = none)
    (h : (downloadLogs c name).run (drive text w) s = (.returned dir, t)) :
    dir = Path.join c.dataDir name ∧ ∃ copies, t.world.copies = s.world.copies ++ copies
      ∧ copies.map Copy.what = (pairs s.own.hosts c.logFiles).map (fun x => (x.1, x.2, copyPath dir x.1 x.2))
      ∧ copies.length = s.own.hosts.length * c.logFiles.length
      ∧ (∀ path ∉ copies.map Copy.path, t.world.files path = s.world.files path)
      ∧ (Kept s.world.files t.world.files copies ↔ (copies.map Copy.path).Nodup)
      ∧ (s.own.hosts.Nodup → (∀ host ∈ s.own.hosts, PlainHost host) →
        ((copies.map Copy.path).Nodup ↔ (c.logFiles.map Path.lastSegment).Nodup)) := by
  obtain ⟨rfl, hsome, copies, hcopies, hfiles, hwhat⟩ := copies_of_downloadLogs text w c name h
  have hpaths : copies.map Copy.path
      = (pairs s.own.hosts c.logFiles).map fun x => copyPath (Path.join c.dataDir name) x.1 x.2 := by
    have hmap := congrArg (List.map fun x => x.2.2) hwhat
    rwa [List.map_map, List.map_map] at hmap
  have hlength : copies.length = s.own.hosts.length * c.logFiles.length := by
    have hlengths := congrArg List.length hwhat
    rwa [List.length_map, List.length_map, length_pairs] at hlengths
  have hnone : ∀ copy ∈ copies, s.world.files copy.path = none := by
    intro copy hcopy
    obtain ⟨x, hx, hpath⟩ := List.mem_map.mp (hpaths ▸ List.mem_map_of_mem hcopy : copy.path ∈ _)
    rw [← hpath]
    exact hempty x.1 (mem_pairs.mp hx).1 x.2 (mem_pairs.mp hx).2
  refine ⟨rfl, copies, hcopies, hwhat, hlength, fun path hpath => ?_, ?_, fun hnodup hplain => ?_⟩
  · rw [hfiles, filled_of_not_mem hpath]
  · rw [hfiles]
    exact kept_iff hnone
  · rw [hpaths]
    exact nodup_copyPaths_iff hnodup hplain hsome

/-- The world in which every copy succeeds. -/
def copying : World Unit where
  answer r state := (match r with
    | .shell (.copyFrom ..) => .ok ()
    | .file (.createDirs _) => .ok ()
    | r => r.unanswered, state)

/-- What the hosts hold: under each path, who they are and the path. -/
def signed (host remote : String) (_ : Unit) : String := host ++ ":" ++ remote

/-- A session that is bound to hosts, where no local file is there. -/
def emptyDrive (hosts : List String) : Run Session (Drive Unit) := ⟨{ hosts }, ⟨fun _ => none, [], ()⟩, []⟩

/-- Two logs with different last segments. -/
def twoLogs : BenchConfig := { logFiles := ["/x/std.log", "/x/node.log"] }

/-- Two logs of two hosts: all four are kept. -/
theorem downloads_keep_every_log_iff_two :
    ∃ t copies, (downloadLogs twoLogs "run").run (drive signed copying) (emptyDrive ["a", "b"])
        = (.returned (Path.join "data" "run"), t)
      ∧ copies.length = 4 ∧ Kept (fun _ => none) t.world.files copies := by
  have hreturned : ((downloadLogs twoLogs "run").run (drive signed copying) (emptyDrive ["a", "b"])).1
      = .returned (Path.join "data" "run") := rfl
  have hrun := Prod.ext hreturned rfl
  obtain ⟨-, copies, -, -, hlength, -, hkept, hnodup⟩ := downloads_keep_every_log_iff signed copying twoLogs "run"
    (fun _ _ _ _ => rfl) hrun
  exact ⟨_, copies, hrun, hlength, hkept.mpr ((hnodup (by decide) (by decide)).mpr (by decide))⟩

/-- Two logs in different directories with one last segment. -/
def oneName : BenchConfig := { logFiles := ["/x/std.log", "/y/std.log"] }

/-- The second log of a host overwrites the first one if their last segments are the same, and the download returns. -/
theorem log_of_the_same_name_is_overwritten :
    oneName.logFiles.Nodup ∧ ∃ t, (downloadLogs oneName "run").run (drive signed copying) (emptyDrive ["a"])
        = (.returned (Path.join "data" "run"), t)
      ∧ (∀ path, t.world.files path ≠ some (signed "a" "/x/std.log" ()))
      ∧ {path | t.world.files path ≠ none}.ncard = 1 := by
  have hreturned : ((downloadLogs oneName "run").run (drive signed copying) (emptyDrive ["a"])).1
      = .returned (Path.join "data" "run") := rfl
  obtain ⟨t, hrun, hfiles⟩ : ∃ t, (downloadLogs oneName "run").run (drive signed copying) (emptyDrive ["a"])
        = (.returned (Path.join "data" "run"), t)
      ∧ ∀ path, t.world.files path
        = if path = copyPath (Path.join "data" "run") "a" "/y/std.log" then some (signed "a" "/y/std.log" ())
          else if path = copyPath (Path.join "data" "run") "a" "/x/std.log" then some (signed "a" "/x/std.log" ())
          else none := ⟨_, Prod.ext hreturned rfl, fun _ => rfl⟩
  have hsame : copyPath (Path.join "data" "run") "a" "/x/std.log"
      = copyPath (Path.join "data" "run") "a" "/y/std.log" := by
    have hlast : Path.lastSegment "/x/std.log" = Path.lastSegment "/y/std.log" := by decide
    rw [copyPath, hlast]
    rfl
  rw [hsame] at hfiles
  generalize copyPath (Path.join "data" "run") "a" "/y/std.log" = kept at hfiles
  refine ⟨by decide, t, hrun, fun path => ?_, ?_⟩
  · rw [hfiles]
    split
    · decide
    · exact nofun
  · have hone : {path | t.world.files path ≠ none} = {kept} := by
      ext path
      rw [Set.mem_ofPred_eq, hfiles, Set.mem_singleton_iff]
      split <;> simp [*]
    rw [hone, Set.ncard_singleton]

end Bench

end CloudFleet
