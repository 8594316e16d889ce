import CloudFleet.Api.Client
import CloudFleet.Proofs.Api.Markup
import Mathlib.Data.List.Basic

/-!
# Pages and the answers that hold them

A `Page` is what an answer of the provider lists, with the token of the page that follows. Every answer that is a
success and can be read holds a page of each kind (`Received.Holds`), whatever else is in it: the reservations with
their instances, the health checks, or the groups that it lists.

Main statement, for every page whose texts are more than blank: there is an answer that holds it
(`holds_of_reservations`, `holds_of_statuses`, `holds_of_groups`).
-/

set_option autoImplicit false

namespace CloudFleet

/-! ## Pages -/

/-- An instance as a page lists it: what is not there is absent. -/
structure ListedInstance where
  id : Option InstanceId
  state : Option String
  address : Option String

/-- A health check as a page lists it. -/
structure ListedStatus where
  id : Option InstanceId
  status : Option String

/-- The texts that are there. -/
def ListedInstance.texts (i : ListedInstance) : List String := i.id.toList ++ i.state.toList ++ i.address.toList

/-- The texts that are there. -/
def ListedStatus.texts (s : ListedStatus) : List String := s.id.toList ++ s.status.toList

/-- The record of an instance that has an identifier; a state that is not there is empty. -/
def ListedInstance.record? (i : ListedInstance) : Option InstanceRecord :=
  i.id.map fun id => ⟨id, i.address, i.state.getD ""⟩

/-- The record of a health check that has an identifier. -/
def ListedStatus.record? (s : ListedStatus) : Option StatusRecord := s.id.map fun id => ⟨id, s.status⟩

/-- What an answer lists, and the token of the page that follows. -/
structure Page (α : Type) where
  entries : List α
  next : Option String

namespace Page

variable {α β : Type}

/-- Another page follows. -/
def Continues (p : Page α) : Prop := ∃ token, p.next = some token ∧ token ≠ ""

/-- It is the last page: its token is absent or empty. -/
def Ends (p : Page α) : Prop := p.next = none ∨ p.next = some ""

/-! ## What an answer holds -/

/-- The instance in an item of a list. -/
def instanceIn (m : Markup) : ListedInstance :=
  ⟨m.field? "instanceId", (m.part? "instanceState").bind (·.field? "name"), m.field? "dnsName"⟩

/-- The health check in an item of a list. -/
def statusIn (m : Markup) : ListedStatus :=
  ⟨m.field? "instanceId", (m.part? "instanceStatus").bind (·.field? "status")⟩

/-- The reservations that an answer lists, each with its instances. -/
def reservationsIn (m : Markup) : List (List ListedInstance) :=
  (m.entries "reservationSet").map fun reservation => (reservation.entries "instancesSet").map instanceIn

/-- The health checks that an answer lists. -/
def statusesIn (m : Markup) : List ListedStatus := (m.entries "instanceStatusSet").map statusIn

/-- The groups that an answer lists, by their names. -/
def groupsIn (m : Markup) : List (Option String) := (m.entries "securityGroupInfo").map (·.field? "groupName")

/-- The page in an answer. -/
def ofMarkup (entriesIn : Markup → List α) (m : Markup) : Page α := ⟨entriesIn m, m.field? "nextToken"⟩

theorem nextToken?_of_continues {entriesIn : Markup → List α} {m : Markup} (h : (ofMarkup entriesIn m).Continues) :
    nextToken? m = m.field? "nextToken" := by
  obtain ⟨token, htoken, hne⟩ := h
  have htoken : m.field? "nextToken" = some token := htoken
  simp [nextToken?, htoken, hne]

theorem nextToken?_of_ends {entriesIn : Markup → List α} {m : Markup} (h : (ofMarkup entriesIn m).Ends) :
    nextToken? m = none := by
  rcases h with h | h
  · have h : m.field? "nextToken" = none := h
    simp [nextToken?, h]
  · have h : m.field? "nextToken" = some "" := h
    simp [nextToken?, h]

theorem instances_eq (m : Markup) :
    instances m = (reservationsIn m).flatMap fun reservation => reservation.filterMap ListedInstance.record? := by
  rw [instances, reservationsIn, List.flatMap_map]
  refine congrArg (List.flatMap · _) (funext fun reservation => ?_)
  rw [List.filterMap_map]
  rfl

theorem statuses_eq (m : Markup) : statuses m = (statusesIn m).flatMap fun s => s.record?.toList := by
  rw [← List.filterMap_eq_flatMap_toList, statusesIn, List.filterMap_map]
  rfl

theorem groups_eq (m : Markup) : groups m = (groupsIn m).filterMap id := by
  rw [groupsIn, List.filterMap_map]
  rfl

end Page

/-- The answer is a success and can be read, and this is the page in it. -/
def Received.Holds {α : Type} (entriesIn : Markup → List α) (r : Received) (p : Page α) : Prop :=
  ∃ m, r.read = .ok m ∧ p = Page.ofMarkup entriesIn m

/-! ## Elements that may be absent -/

namespace Markup

/-- Unless it is empty, the text is more than blank. -/
def Legible (content : String) : Prop := content.toList.all isSpace = true → content = ""

instance (content : String) : Decidable (Legible content) := inferInstanceAs (Decidable (_ → _))

/-- What an element holds for a text. -/
def words (content : String) : List Markup := if content = "" then [] else [.text content]

/-- An element of a name, if there is something for it to hold. -/
def optional (name : String) (held : Option (List Markup)) : List Markup := held.toList.map (.element name)

theorem part?_element (name part : String) (held : List Markup) :
    (element name held).part? part = (held.filter (isNamed part)).getLast? := rfl

theorem field?_element (name part : String) (held : List Markup) :
    (element name held).field? part = ((held.filter (isNamed part)).getLast?).map content := rfl

theorem content_words (name : String) {content : String} (h : Legible content) :
    (element name (words content)).content = content := by
  unfold words
  split
  · rename_i hempty
    rw [hempty]
    rfl
  · rename_i hsome
    have hblank : ¬content.toList.all isSpace = true := fun hb => hsome (h hb)
    have hjoin : String.join [content] = content := by simp [String.join]
    rw [Markup.content]
    exact (if_neg (by rwa [children, List.map_singleton, hjoin])).trans hjoin

theorem proper_words {name : String} (hname : IsName name) (content : String) :
    Proper (.element name (words content)) := by
  unfold words
  split
  · exact .tree hname (by simp)
  · rename_i hsome
    exact .leaf hname hsome

section Optional

variable {name : String} {held : Option (List Markup)}

@[simp] theorem filter_optional : (optional name held).filter (isNamed name) = optional name held := by
  refine List.filter_eq_self.mpr fun m hm => ?_
  obtain ⟨inner, -, rfl⟩ := List.mem_map.mp hm
  exact beq_self_eq_true name

@[simp] theorem filter_optional_other {other : String} (h : name ≠ other) :
    (optional name held).filter (isNamed other) = [] := by
  refine List.filter_eq_nil_iff.mpr fun m hm => ?_
  obtain ⟨inner, -, rfl⟩ := List.mem_map.mp hm
  simpa [isNamed] using h

@[simp] theorem getLast?_optional : (optional name held).getLast? = held.map (.element name) := by
  cases held <;> rfl

theorem proper_optional (h : ∀ inner ∈ held, Proper (.element name inner)) : ∀ m ∈ optional name held, Proper m := by
  intro m hm
  obtain ⟨inner, hinner, rfl⟩ := List.mem_map.mp hm
  exact h inner (Option.mem_toList.mp hinner)

end Optional

end Markup

/-! ## Answers for pages -/

namespace Page

open Markup

/-- An instance as it is listed in an answer. -/
def instanceItem (i : ListedInstance) : Markup :=
  .element "item" (optional "instanceId" (i.id.map words)
    ++ optional "instanceState" (i.state.map fun state => optional "name" (some (words state)))
    ++ optional "dnsName" (i.address.map words))

/-- A reservation as it is listed in an answer. -/
def reservationItem (instances : List ListedInstance) : Markup :=
  .element "item" [.element "instancesSet" (instances.map instanceItem)]

/-- A health check as it is listed in an answer. -/
def statusItem (s : ListedStatus) : Markup :=
  .element "item" (optional "instanceId" (s.id.map words)
    ++ optional "instanceStatus" (s.status.map fun status => optional "status" (some (words status))))

/-- A group as it is listed in an answer. -/
def groupItem (name : Option String) : Markup := .element "item" (optional "groupName" (name.map words))

/-- The content of an answer that holds a page: a list of some name, and the token. -/
def markup {α : Type} (list : String) (item : α → Markup) (p : Page α) : Markup :=
  .element "Response" (.element list (p.entries.map item) :: optional "nextToken" (p.next.map words))

/-- Every text of the page is more than blank, unless it is empty. -/
def Legible {α : Type} (texts : α → List String) (p : Page α) : Prop :=
  ∀ content ∈ p.next.toList ++ p.entries.flatMap texts, Markup.Legible content

instance {α : Type} (texts : α → List String) (p : Page α) : Decidable (p.Legible texts) :=
  inferInstanceAs (Decidable (∀ _ ∈ _, _))

theorem Legible.next {α : Type} {texts : α → List String} {p : Page α} (h : p.Legible texts) :
    ∀ token ∈ p.next, Markup.Legible token := fun token htoken =>
  h token (List.mem_append_left _ (Option.mem_toList.mpr htoken))

theorem Legible.entry {α : Type} {texts : α → List String} {p : Page α} (h : p.Legible texts) :
    ∀ e ∈ p.entries, ∀ content ∈ texts e, Markup.Legible content := fun e he content hcontent =>
  h content (List.mem_append_right _ (List.mem_flatMap.mpr ⟨e, he, hcontent⟩))

theorem map_content {name : String} {content : Option String} (h : ∀ c ∈ content, Markup.Legible c) :
    content.map (Markup.content ∘ element name ∘ words) = content := by
  cases content with
  | none => rfl
  | some c => exact congrArg some (content_words name (h c rfl))

/-- A text within an element within another one. -/
theorem bind_field? {outer inner : String} {content : Option String} (h : ∀ c ∈ content, Markup.Legible c) :
    (content.map (element outer ∘ fun c => optional inner (some (words c)))).bind (·.field? inner) = content := by
  cases content with
  | none => rfl
  | some c =>
    have hinner : (element inner (words c)).content = c := content_words inner (h c rfl)
    simp [field?_element, hinner]

theorem proper_words_of {name : String} (hname : IsName name) (content : Option String) :
    ∀ m ∈ optional name (content.map words), Proper m := by
  refine proper_optional fun inner hinner => ?_
  obtain ⟨c, -, rfl⟩ := Option.map_eq_some_iff.mp hinner
  exact proper_words hname c

/-- Elements of a text within elements of another name. -/
theorem proper_nested {outer inner : String} (houter : IsName outer) (hinner : IsName inner) (content : Option String) :
    ∀ m ∈ optional outer (content.map fun c => optional inner (some (words c))), Proper m := by
  refine proper_optional fun held hheld => ?_
  obtain ⟨c, -, rfl⟩ := Option.map_eq_some_iff.mp hheld
  exact .tree houter (proper_words_of hinner (some c))

/-! ## Items -/

/-- The items written for entries are proper ones, from which the entries are read again if their texts are legible. -/
structure ReadsBack {α : Type} (item : α → Markup) (readItem : Markup → α) (texts : α → List String) : Prop where
  named : ∀ e, isNamed "item" (item e) = true
  proper : ∀ e, Proper (item e)
  read : ∀ e, (∀ content ∈ texts e, Markup.Legible content) → readItem (item e) = e

section ReadingBack

variable {α : Type} {item : α → Markup} {readItem : Markup → α} {texts : α → List String} {entries : List α}

/-- The entries of the only list of its name. -/
theorem ReadsBack.entries_eq (h : ReadsBack item readItem texts) (hlegible : ∀ e ∈ entries, ∀ content ∈ texts e,
    Markup.Legible content) {name list : String} {rest : List Markup} (hrest : rest.filter (isNamed list) = []) :
    ((element name (.element list (entries.map item) :: rest)).entries list).map readItem = entries := by
  have hitems : (entries.map item).filter (isNamed "item") = entries.map item := by
    refine List.filter_eq_self.mpr fun m hm => ?_
    obtain ⟨e, -, rfl⟩ := List.mem_map.mp hm
    exact h.named e
  have hread : ∀ e ∈ entries, readItem (item e) = e := fun e he => h.read e (hlegible e he)
  have hentries : (element name (.element list (entries.map item) :: rest)).entries list = entries.map item := by
    simp [Markup.entries, Markup.named, children, isNamed, hrest, hitems]
  rw [hentries, List.map_map]
  exact (List.map_congr_left hread).trans (List.map_id _)

theorem ReadsBack.proper_list (h : ReadsBack item readItem texts) {list : String} (hname : IsName list)
    (entries : List α) : Proper (.element list (entries.map item)) := by
  refine .tree hname fun m hm => ?_
  obtain ⟨e, -, rfl⟩ := List.mem_map.mp hm
  exact h.proper e

end ReadingBack

theorem readsBack_instance : ReadsBack instanceItem instanceIn ListedInstance.texts where
  named _ := rfl
  proper i := by
    refine .tree (by decide) fun m hm => ?_
    simp only [List.mem_append] at hm
    rcases hm with (hm | hm) | hm
    · exact proper_words_of (by decide) i.id m hm
    · exact proper_nested (by decide) (by decide) i.state m hm
    · exact proper_words_of (by decide) i.address m hm
  read i h := by
    simp only [ListedInstance.texts, List.mem_append, Option.mem_toList] at h
    have hid : ∀ c ∈ i.id, Markup.Legible c := fun c hc => h c (.inl (.inl hc))
    have hstate : ∀ c ∈ i.state, Markup.Legible c := fun c hc => h c (.inl (.inr hc))
    have haddress : ∀ c ∈ i.address, Markup.Legible c := fun c hc => h c (.inr hc)
    simp [instanceIn, instanceItem, part?_element, field?_element, map_content hid, map_content haddress,
      bind_field? hstate]

theorem readsBack_reservation : ReadsBack reservationItem (fun m => (m.entries "instancesSet").map instanceIn)
    (List.flatMap ListedInstance.texts) where
  named _ := rfl
  proper instances := by
    refine .tree (by decide) fun m hm => ?_
    obtain rfl := List.mem_singleton.mp hm
    exact readsBack_instance.proper_list (by decide) instances
  read instances h :=
    readsBack_instance.entries_eq (fun i hi content hc => h content (List.mem_flatMap.mpr ⟨i, hi, hc⟩)) rfl

theorem readsBack_status : ReadsBack statusItem statusIn ListedStatus.texts where
  named _ := rfl
  proper s := by
    refine .tree (by decide) fun m hm => ?_
    rcases List.mem_append.mp hm with hm | hm
    · exact proper_words_of (by decide) s.id m hm
    · exact proper_nested (by decide) (by decide) s.status m hm
  read s h := by
    simp only [ListedStatus.texts, List.mem_append, Option.mem_toList] at h
    have hid : ∀ c ∈ s.id, Markup.Legible c := fun c hc => h c (.inl hc)
    have hstatus : ∀ c ∈ s.status, Markup.Legible c := fun c hc => h c (.inr hc)
    simp [statusIn, statusItem, part?_element, field?_element, map_content hid, bind_field? hstatus]

theorem readsBack_group : ReadsBack groupItem (·.field? "groupName") Option.toList where
  named _ := rfl
  proper name := .tree (by decide) (proper_words_of (by decide) name)
  read name h := by
    have hname : ∀ c ∈ name, Markup.Legible c := fun c hc => h c (Option.mem_toList.mpr hc)
    simp [groupItem, field?_element, map_content hname]

/-! ## Every kind of page -/

section Kinds

variable {status : Nat} (hstatus : 200 ≤ status ∧ status < 300) (requestId : Option String)
include hstatus

/-- The answer whose text is that of a page holds the page. -/
theorem holds_of_readsBack {α : Type} {list : String} {item : α → Markup} {readItem : Markup → α}
    {texts : α → List String} (h : ReadsBack item readItem texts) (hname : IsName list) (hlist : list ≠ "nextToken")
    {p : Page α} (hlegible : p.Legible texts) :
    (Received.answer status requestId (p.markup list item).write).Holds (fun m => (m.entries list).map readItem) p := by
  have hread : Markup.read? (p.markup list item).write = some (p.markup list item) := by
    refine Proper.read?_write (.tree (by decide) fun m hm => ?_)
    rcases List.mem_cons.mp hm with rfl | hm
    · exact h.proper_list hname p.entries
    · exact proper_words_of (by decide) p.next m hm
  have hsome : (p.markup list item).write.isEmpty = false := by
    have hne : (p.markup list item).write.toList ≠ [] := by simp [markup, toList_write_element]
    simpa using hne
  have hentries : ((p.markup list item).entries list).map readItem = p.entries :=
    h.entries_eq hlegible.entry (filter_optional_other (Ne.symm hlist))
  have hnext : (p.markup list item).field? "nextToken" = p.next := by
    simp [markup, field?, part?, named, children, isNamed, hlist, map_content hlegible.next]
  refine ⟨p.markup list item, ?_, ?_⟩
  · rw [Received.read, if_pos hstatus, hsome, if_neg Bool.false_ne_true, hread]
  · rw [ofMarkup, hentries, hnext]

/-- Every page of reservations is held by an answer. -/
theorem holds_of_reservations {p : Page (List ListedInstance)} (h : p.Legible (List.flatMap ListedInstance.texts)) :
    (Received.answer status requestId (p.markup "reservationSet" reservationItem).write).Holds reservationsIn p :=
  holds_of_readsBack hstatus requestId readsBack_reservation (by decide) (by decide) h

/-- Every page of health checks is held by an answer. -/
theorem holds_of_statuses {p : Page ListedStatus} (h : p.Legible ListedStatus.texts) :
    (Received.answer status requestId (p.markup "instanceStatusSet" statusItem).write).Holds statusesIn p :=
  holds_of_readsBack hstatus requestId readsBack_status (by decide) (by decide) h

/-- Every page of groups is held by an answer. -/
theorem holds_of_groups {p : Page (Option String)} (h : p.Legible Option.toList) :
    (Received.answer status requestId (p.markup "securityGroupInfo" groupItem).write).Holds groupsIn p :=
  holds_of_readsBack hstatus requestId readsBack_group (by decide) (by decide) h

end Kinds

end Page

end CloudFleet
