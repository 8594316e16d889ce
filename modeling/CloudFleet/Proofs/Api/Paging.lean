import CloudFleet.Proofs.Api.Page

/-!
# Reading page after page

Instances and their health are asked for page by page. However many pages the provider makes of its answer, one
request is made for each of them: the first without a token, every other one with the token of the page before, all
for the same identifiers. What is returned are the records of all pages together in their order, or the error of the
request that failed, and then nothing of the pages before it (`describe_calls_read_every_page`).
-/

set_option autoImplicit false

namespace CloudFleet

/-- With these answers to come, the next request fails: nothing comes back for it, or an error. With the error, and
the answers that are left. -/
inductive Breaks : List Received → String → List Received → Prop
  | silent : Breaks [] "no response" []
  | wrong {r : Received} {message : String} (rest : List Received) (h : r.read = .error message) :
    Breaks (r :: rest) message rest

namespace ApiClient

/-! ## The loop over the pages -/

section Pages

variable {α β : Type} {form : Form} {read : Markup → List β} {entriesIn : Markup → List α} {record : α → List β}

theorem pages_of_breaks {answers left : List Received} {message : String} (h : Breaks answers message left)
    (token : Option String) :
    pages form read token answers = (.error message, [form.withToken token], left) := by
  cases h with
  | silent => rfl
  | wrong rest h => rw [pages, h]

variable (hread : ∀ m, read m = (entriesIn m).flatMap record)
include hread

theorem pages_of_ends {r : Received} {p : Page α} (h : r.Holds entriesIn p) (hends : p.Ends) (rest : List Received)
    (token : Option String) :
    pages form read token (r :: rest) = (.ok (p.entries.flatMap record), [form.withToken token], rest) := by
  obtain ⟨m, hm, rfl⟩ := h
  rw [pages, hm]
  simp only [Page.nextToken?_of_ends hends, hread]
  rfl

theorem pages_of_continues {r : Received} {p : Page α} (h : r.Holds entriesIn p) (hcontinues : p.Continues)
    (rest : List Received) (token : Option String) :
    pages form read token (r :: rest) =
      let (more, forms, left) := pages form read p.next rest
      (more.map (p.entries.flatMap record ++ ·), form.withToken token :: forms, left) := by
  obtain ⟨m, hm, rfl⟩ := h
  have htoken := Page.nextToken?_of_continues hcontinues
  obtain ⟨next, hnext, -⟩ := hcontinues
  have hnext : m.field? "nextToken" = some next := hnext
  rw [pages, hm]
  simp only [htoken, hnext, hread, Page.ofMarkup]

/-- Pages that are followed by others, then an answer that ends the loop: the requests with their tokens, and the
records of the pages before those of the end. By induction on the pages; each of them is asked for with the token of
the page before, whatever that is. -/
theorem pages_append {answers : List Received} {ps : List (Page α)}
    (h : List.Forall₂ (Received.Holds entriesIn) answers ps) (hcontinues : ∀ p ∈ ps, p.Continues)
    {rest left : List Received} {result : Except String (List β)}
    (hrest : ∀ token, pages form read token rest = (result, [form.withToken token], left)) (token : Option String) :
    pages form read token (answers ++ rest) =
      (result.map ((ps.flatMap Page.entries).flatMap record ++ ·), (token :: ps.map Page.next).map form.withToken,
        left) := by
  induction h generalizing token with
  | nil =>
    rw [List.nil_append, hrest]
    cases result <;> rfl
  | cons hr hs ih =>
    rename_i r p rs ps
    rw [List.cons_append, pages_of_continues hread hr (hcontinues p List.mem_cons_self),
      ih fun q hq => hcontinues q (List.mem_cons_of_mem p hq)]
    cases result <;> simp [Except.map]

end Pages

/-! ## The calls -/

/-- The request for a page of a list of instances. -/
def inquiry (action : String) (ids : List InstanceId) (token : Option String) : Form :=
  ("Action", action) :: (Form.numbered "InstanceId" ids ++ token.toList.map fun t => ("NextToken", t))

/-- A call that lists something of instances reads every page: what comes of it, with the line after it. -/
structure ReadsPages {α β : Type} (l : ApiClient) (region : Region) (action : String) (ids : List InstanceId)
    (entriesIn : Markup → List α) (record : α → List β) (outcome : Except CloudError (List β) × ApiClient) : Prop where
  /-- If pages come up to a last one, they are all read, with one request for each. -/
  complete : ∀ {answers rest : List Received} {last : Received} {pages : List (Page α)} {page : Page α},
    l.incoming = answers ++ last :: rest →
    List.Forall₂ (Received.Holds entriesIn) answers pages → (∀ p ∈ pages, p.Continues) →
    last.Holds entriesIn page → page.Ends →
    outcome =
      (.ok (((pages ++ [page]).flatMap Page.entries).flatMap record),
        { l with
          incoming := rest
          sent := l.sent ++ (none :: pages.map Page.next).map fun token => (region, inquiry action ids token) })
  /-- If a request fails after some pages, its error is all that is returned. -/
  broken : ∀ {answers rest left : List Received} {pages : List (Page α)} {message : String},
    l.incoming = answers ++ rest →
    List.Forall₂ (Received.Holds entriesIn) answers pages → (∀ p ∈ pages, p.Continues) →
    Breaks rest message left →
    outcome =
      (.error (if Text.contains message "DryRunOperation" then .dryRun else .api region action message),
        { l with
          incoming := left
          sent := l.sent ++ (none :: pages.map Page.next).map fun token => (region, inquiry action ids token) })

/-- A call reads every page if it is made by the loop over the pages. -/
theorem ReadsPages.of_pages {α β : Type} {l : ApiClient} {region : Region} {action : String} {ids : List InstanceId}
    {entriesIn : Markup → List α} {record : α → List β} {outcome : Except CloudError (List β) × ApiClient}
    {read : Markup → List β} (hread : ∀ m, read m = (entriesIn m).flatMap record)
    (houtcome : outcome =
      match pages (("Action", action) :: Form.numbered "InstanceId" ids) read none l.incoming with
      | (result, forms, incoming) =>
        (result.mapError fun message =>
            if Text.contains message dryRunMark then .dryRun else .api region action message,
          { l with incoming, sent := l.sent ++ forms.map fun f => (region, f) })) :
    ReadsPages l region action ids entriesIn record outcome where
  complete hl hpages hcontinues hlast hends := by
    rw [houtcome, hl, pages_append hread hpages hcontinues (pages_of_ends hread hlast hends _)]
    simp [Except.map, Except.mapError, inquiry, Form.withToken, Function.comp_def]
  broken hl hpages hcontinues hbreaks := by
    rw [houtcome, hl, pages_append hread hpages hcontinues (pages_of_breaks hbreaks)]
    simp [Except.map, Except.mapError, inquiry, Form.withToken, Function.comp_def, dryRunMark]
    rfl

theorem perform_of_served {l : ApiClient} {c : CloudCall} (h : c.region ∈ l.regions) :
    l.perform c =
      match ask c l.incoming with
      | (result, forms, incoming) =>
        (result.mapError (failure c), { l with incoming, sent := l.sent ++ forms.map fun f => (c.region, f) }) := by
  have hserved : (!l.regions.contains c.region) = false := by simpa using h
  rw [perform, hserved]
  rfl

/-- Describe calls read every page, and every page may come. -/
theorem describe_calls_read_every_page {l : ApiClient} {region : Region} (hregion : region ∈ l.regions)
    (ids : List InstanceId) :
    ReadsPages l region "DescribeInstances" ids Page.reservationsIn (List.filterMap ListedInstance.record?)
        (l.perform (.describeInstances region ids)) ∧
      ReadsPages l region "DescribeInstanceStatus" ids Page.statusesIn (fun s => s.record?.toList)
        (l.perform (.describeStatuses region ids)) ∧
      ∀ (status : Nat) (requestId : Option String), 200 ≤ status ∧ status < 300 →
        (∀ p : Page (List ListedInstance), p.Legible (List.flatMap ListedInstance.texts) →
          (Received.answer status requestId (p.markup "reservationSet" Page.reservationItem).write).Holds
            Page.reservationsIn p) ∧
        ∀ p : Page ListedStatus, p.Legible ListedStatus.texts →
          (Received.answer status requestId (p.markup "instanceStatusSet" Page.statusItem).write).Holds
            Page.statusesIn p := by
  refine ⟨.of_pages Page.instances_eq ?_, .of_pages Page.statuses_eq ?_, fun status requestId hstatus => ⟨?_, ?_⟩⟩
  · exact perform_of_served hregion
  · exact perform_of_served hregion
  · exact fun _ => Page.holds_of_reservations hstatus requestId
  · exact fun _ => Page.holds_of_statuses hstatus requestId

/-- Pages that are followed by others; one instance has no identifier, and one reservation is empty. -/
def firstPages : List (Page (List ListedInstance)) :=
  [⟨[[⟨some "i-1", some "running", some "a"⟩, ⟨none, some "running", none⟩], []], some "t"⟩, ⟨[], some "u"⟩]

/-- The last page, with an empty token, of an instance without a state. -/
def lastPage : Page (List ListedInstance) := ⟨[[⟨some "i-2", none, some "b"⟩]], some ""⟩

/-- The answer that holds a page of reservations. -/
def listing (p : Page (List ListedInstance)) : Received :=
  .answer 200 none (p.markup "reservationSet" Page.reservationItem).write

/-- Three pages are read one after the other; if nothing comes back for the last request, that is the error. -/
theorem describe_calls_read_three_pages :
    (ApiClient.mk [⟨"eu-west-3"⟩] (firstPages.map listing ++ listing lastPage :: []) []).perform
        (.describeInstances ⟨"eu-west-3"⟩ ["i-7"]) =
      (.ok [⟨"i-1", some "a", "running"⟩, ⟨"i-2", some "b", ""⟩],
        ⟨[⟨"eu-west-3"⟩], [],
          [(⟨"eu-west-3"⟩, [("Action", "DescribeInstances"), ("InstanceId.1", "i-7")]),
            (⟨"eu-west-3"⟩, [("Action", "DescribeInstances"), ("InstanceId.1", "i-7"), ("NextToken", "t")]),
            (⟨"eu-west-3"⟩, [("Action", "DescribeInstances"), ("InstanceId.1", "i-7"), ("NextToken", "u")])]⟩) ∧
      ((ApiClient.mk [⟨"eu-west-3"⟩] (firstPages.map listing ++ [.lost "timed out"]) []).perform
        (.describeInstances ⟨"eu-west-3"⟩ [])).1 = .error (.api ⟨"eu-west-3"⟩ "DescribeInstances" "timed out") := by
  have hcontinues : ∀ p ∈ firstPages, p.Continues := by
    intro p hp
    rcases List.mem_cons.mp hp with rfl | hp
    · exact ⟨"t", rfl, by decide⟩
    · obtain rfl := List.mem_singleton.mp hp
      exact ⟨"u", rfl, by decide⟩
  have held : ∀ p ∈ lastPage :: firstPages, (listing p).Holds Page.reservationsIn p := by
    intro p hp
    have hlegible : ∀ p ∈ lastPage :: firstPages, p.Legible (List.flatMap ListedInstance.texts) := by decide
    exact ((describe_calls_read_every_page (l := ⟨[⟨"eu-west-3"⟩], [], []⟩) (List.mem_singleton_self _) []).2.2
      200 none (by decide)).1 p (hlegible p hp)
  have hpages : List.Forall₂ (Received.Holds Page.reservationsIn) (firstPages.map listing) firstPages :=
    .cons (held _ (by simp [firstPages])) (.cons (held _ (by simp [firstPages])) .nil)
  refine ⟨(describe_calls_read_every_page (List.mem_singleton_self _) ["i-7"]).1.complete rfl hpages hcontinues
    (held lastPage List.mem_cons_self) (.inr rfl), ?_⟩
  have hbreaks : Breaks [.lost "timed out"] "timed out" [] := .wrong [] rfl
  exact congrArg Prod.fst
    ((describe_calls_read_every_page (List.mem_singleton_self _) []).1.broken rfl hpages hcontinues hbreaks)

end ApiClient

end CloudFleet
