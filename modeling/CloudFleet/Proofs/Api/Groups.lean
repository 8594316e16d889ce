import CloudFleet.Proofs.Api.Paging
import CloudFleet.Proofs.Fleet.Rebuilding

/-!
# Groups beyond the first page

Groups are asked for once. Where the provider makes several pages of them, the names returned are those of the first
page, so the list is complete exactly if no later page names a group, and the configured group is deleted before it is
created exactly if the first page names it (`groups_of_the_first_page`).
-/

set_option autoImplicit false

namespace CloudFleet.ApiClient

open Fleet (Asks GroupStep)

/-- The names in a list of groups. -/
def names (groups : List (Option String)) : List String := groups.filterMap id

theorem mem_names {groups : List (Option String)} {name : String} : name ∈ names groups ↔ some name ∈ groups := by
  simp [names]

theorem names_append (groups more : List (Option String)) : names (groups ++ more) = names groups ++ names more :=
  List.filterMap_append

theorem names_pages_eq_nil_iff {pages : List (Page (Option String))} :
    names (pages.flatMap Page.entries) = [] ↔ ∀ p ∈ pages, names p.entries = [] := by
  rw [names, List.filterMap_flatMap, List.flatMap_eq_nil_iff]
  rfl

theorem perform_listGroups {l : ApiClient} {region : Region} (hregion : region ∈ l.regions) {first : Received}
    {rest : List Received} {page : Page (Option String)} (hl : l.incoming = first :: rest)
    (h : first.Holds Page.groupsIn page) :
    l.perform (.listGroups region) =
      (.ok (names page.entries),
        { l with incoming := rest, sent := l.sent ++ [(region, [("Action", "DescribeSecurityGroups")])] }) := by
  obtain ⟨m, hm, rfl⟩ := h
  have hgroups : Page.groups m = names (Page.groupsIn m) := Page.groups_eq m
  rw [perform_of_served hregion, hl, ask, single, hm]
  exact congrArg (fun groups => (Except.ok groups, _)) hgroups

/-- Rebuilding the group of a region begins with the list of groups, and goes on by the list that is returned. -/
theorem asked_of_rebuildGroup (c : FleetConfig) {region : Region} {s : Run Fleet ApiClient} {existing : List String}
    (h : (s.world.perform (.listGroups region)).1 = .ok existing) :
    ∃ result xs t, (Fleet.rebuildGroup c region).run world s = (.returned result, t) ∧ Asks s t xs ∧
      (xs.map Sigma.fst).take 2 = [.cloud (.listGroups region),
        if c.securityGroup ∈ existing then .cloud (.deleteGroup region c.securityGroup)
        else .cloud (.createGroup region c.securityGroup c.securityGroupDescription)] := by
  obtain ⟨result, xs, t, hrun, hcourse, hhead, hasks, -⟩ := Fleet.run_rebuildGroup world c region s
  have hreply : s.reply world (.cloud (.listGroups region)) = .ok existing := h
  refine ⟨result, xs, t, hrun, hasks, ?_⟩
  rw [hreply] at hhead
  cases hcourse with
  | unlisted e => cases hhead
  | listed found htakes =>
    rename_i ys
    cases hhead
    have hsecond : (ys.map Sigma.fst).head? = some (if c.securityGroup ∈ existing
        then .cloud (.deleteGroup region c.securityGroup)
        else .cloud (.createGroup region c.securityGroup c.securityGroupDescription)) := by
      rw [htakes.head?_asked, Fleet.head?_replacement, Option.map_some, apply_ite (GroupStep.request _ _)]
      rfl
    cases ys with
    | nil => cases hsecond
    | cons y ys =>
      rw [List.map_cons, List.map_cons, List.take_succ_cons, List.take_succ_cons, List.take_zero]
      exact congrArg (_ :: [·]) (Option.some.inj hsecond)

/-- Whatever pages the groups come in, only the first one is read. The list is complete exactly if the later pages name
no group, and the configured group is deleted before it is created exactly if the first page names it. -/
theorem groups_of_the_first_page {l : ApiClient} {region : Region} (hregion : region ∈ l.regions) {first : Received}
    {answers rest : List Received} {page : Page (Option String)} {later : List (Page (Option String))}
    (hl : l.incoming = first :: answers ++ rest)
    (hpages : List.Forall₂ (Received.Holds Page.groupsIn) (first :: answers) (page :: later)) :
    l.perform (.listGroups region) =
        (.ok (names page.entries),
          { l with
            incoming := answers ++ rest
            sent := l.sent ++ [(region, [("Action", "DescribeSecurityGroups")])] }) ∧
      (names page.entries = names ((page :: later).flatMap Page.entries) ↔ ∀ p ∈ later, names p.entries = []) ∧
      ∀ (c : FleetConfig) (s : Run Fleet ApiClient), s.world = l →
        ∃ result xs t, (Fleet.rebuildGroup c region).run world s = (.returned result, t) ∧ Asks s t xs ∧
          (xs.map Sigma.fst).take 2 = [.cloud (.listGroups region),
            if some c.securityGroup ∈ page.entries then .cloud (.deleteGroup region c.securityGroup)
            else .cloud (.createGroup region c.securityGroup c.securityGroupDescription)] := by
  obtain ⟨hfirst, -⟩ := List.forall₂_cons.mp hpages
  have hlisted := perform_listGroups hregion hl hfirst
  refine ⟨hlisted, ?_, fun c s hs => ?_⟩
  · rw [List.flatMap_cons, names_append, List.self_eq_append_right]
    exact names_pages_eq_nil_iff
  · subst hs
    have hasked := asked_of_rebuildGroup c (congrArg Prod.fst hlisted)
    simpa only [mem_names] using hasked

/-! ## A group on the second page -/

/-- Groups in two pages. -/
def twoPages : List (Page (Option String)) := [⟨[some "default"], some "t"⟩, ⟨[some "hydrand"], none⟩]

/-- The answer that holds a page of groups. -/
def groupListing (p : Page (Option String)) : Received :=
  .answer 200 none (p.markup "securityGroupInfo" Page.groupItem).write

/-- The line to a region whose groups come in two pages. -/
def pagedLine : ApiClient := ⟨[⟨"eu-west-3"⟩], twoPages.map groupListing, []⟩

theorem holds_twoPages : List.Forall₂ (Received.Holds Page.groupsIn) pagedLine.incoming twoPages := by
  have hheld : ∀ p ∈ twoPages, (groupListing p).Holds Page.groupsIn p := by
    intro p hp
    have hlegible : ∀ p ∈ twoPages, p.Legible Option.toList := by decide
    exact Page.holds_of_groups (by decide) none (hlegible p hp)
  exact .cons (hheld _ List.mem_cons_self) (.cons (hheld _ (by simp [twoPages])) .nil)

theorem groups_of_the_first_of_two_pages :
    pagedLine.perform (.listGroups ⟨"eu-west-3"⟩) =
        (.ok ["default"],
          ⟨[⟨"eu-west-3"⟩], [groupListing ⟨[some "hydrand"], none⟩],
            [(⟨"eu-west-3"⟩, [("Action", "DescribeSecurityGroups")])]⟩) :=
  (groups_of_the_first_page (List.mem_singleton_self _) (List.append_nil _).symm holds_twoPages).1

/-- The configured group exists, but it is on the second page: it is neither returned nor deleted. -/
theorem group_on_the_second_page_is_not_deleted :
    twoPages.map Page.next = [some "t", none] ∧
      List.Forall₂ (Received.Holds Page.groupsIn) pagedLine.incoming twoPages ∧
      names (twoPages.flatMap Page.entries) = ["default", "hydrand"] ∧
      (pagedLine.perform (.listGroups ⟨"eu-west-3"⟩)).1 = .ok ["default"] ∧
      ∃ result xs t, (Fleet.rebuildGroup {} ⟨"eu-west-3"⟩).run world ⟨{}, pagedLine, []⟩ = (.returned result, t) ∧
        Asks ⟨{}, pagedLine, []⟩ t xs ∧
        (xs.map Sigma.fst).take 2 = [.cloud (.listGroups ⟨"eu-west-3"⟩),
          .cloud (.createGroup ⟨"eu-west-3"⟩ "hydrand" "hydrand security group (script generated)")] := by
  have hlisted : (pagedLine.perform (.listGroups ⟨"eu-west-3"⟩)).1 = .ok ["default"] := by
    obtain ⟨hfirst, -⟩ := List.forall₂_cons.mp holds_twoPages
    exact congrArg Prod.fst (perform_listGroups (List.mem_singleton_self _) rfl hfirst)
  exact ⟨rfl, holds_twoPages, rfl, hlisted,
    asked_of_rebuildGroup {} (s := ⟨{}, pagedLine, []⟩) hlisted⟩

end CloudFleet.ApiClient
