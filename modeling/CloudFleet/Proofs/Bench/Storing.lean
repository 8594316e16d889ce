import CloudFleet.Bench.RecordJson
import CloudFleet.Fleet.Record
import CloudFleet.Proofs.Decimal.Numeral
import CloudFleet.Proofs.Json.Records
import CloudFleet.Proofs.Time.Reading

/-!
# Stored runs are read back

The record of a run, the parameters of a benchmark, a plan and an instance are stored as JSON, on one line or on many.
What is stored is well formed, field by field, so the text is read as the value that was printed; and in that value each
field is read as what was written there. Of floats it is taken that a finite one is read back from its text
(`Restorable`), and of instants that they are ones of the clock, with years of four digits.

Main statement: `stored_values_are_read_back`.
-/

set_option autoImplicit false

namespace CloudFleet

open Json

/-- A finite float that is read back from its text: what is taken of the printing and reading of floats. -/
structure Restorable (x : Float) : Prop where
  finite : x.isFinite = true
  read : float? (ofFloat x) = some x

namespace Instant

/-- An instant of the clock with a year of four digits. -/
structure Storable (t : Instant) : Prop where
  proper : t.Proper
  year : 0 ≤ t.date.year ∧ t.date.year ≤ 9999

theorem Storable.ofJson?_toJson {t : Instant} (h : t.Storable) : ofJson? t.toJson = some t := by
  rw [ofJson?, toJson, text?_ofText, Option.bind_some, read?_isoText h.proper h.year]

theorem wellFormed_toJson (t : Instant) : WellFormed t.toJson := wellFormed_ofText _

end Instant

/-! ## Values with a few forms -/

@[simp] theorem HostResult.ofJson?_toJson (r : HostResult) : ofJson? r.toJson = some r := by
  cases r with
  | missing found => simp [toJson, ofJson?, record]
  | _ => simp [toJson, ofJson?, ofJson?.named, ofText, name?, text?]

theorem HostResult.wellFormed_toJson (r : HostResult) : WellFormed r.toJson := by
  cases r with
  | missing found => exact .object (by simp [isWritten_quote]) (by simp [wellFormed_ofText])
  | _ => exact wellFormed_ofText _

@[simp] theorem Verdict.ofJson?_toJson (v : Verdict) : ofJson? v.toJson = some v := by
  cases v <;> simp [toJson, ofJson?]

theorem Verdict.wellFormed_toJson (v : Verdict) : WellFormed v.toJson := by cases v <;> exact wellFormed_ofText _

@[simp] theorem RoundBound.ofJson?_toJson (b : RoundBound) : ofJson? b.toJson = some b := by
  rw [ofJson?, toJson, name?_ofText, Option.bind_some]
  cases b <;> decide

@[simp] theorem Region.ofJson?_toJson (r : Region) : ofJson? r.toJson = some r := by simp [ofJson?, toJson]

@[simp] theorem InstanceState.ofJson?_toJson (s : InstanceState) : ofJson? s.toJson = some s := by
  rw [ofJson?, toJson, name?_ofText, Option.bind_some, ofTitle?_title]

/-! ## Records -/

/-- The record of a run is read back from its value. -/
theorem RunRecord.ofJson?_toJson {r : RunRecord}
    (hfloats : ∀ x ∈ [r.proposeDuration, r.acknowledgeDuration, r.voteDuration], Restorable x)
    (hinstants : ∀ t ∈ [r.start, r.finish], t.Storable) : ofJson? r.toJson = some r := by
  simp only [List.forall_mem_cons] at hfloats hinstants
  obtain ⟨hpropose, hacknowledge, hvote, -⟩ := hfloats
  obtain ⟨hstart, hfinish, -⟩ := hinstants
  have hrounds : list? (pair? text? word64?)
      (.array (r.roundsPerHost.map fun entry => .array [ofText entry.1, ofWord64 entry.2])) = some r.roundsPerHost :=
    list?_map fun entry _ => pair?_array (text?_ofText entry.1) (word64?_ofWord64 entry.2)
  have hresults : list? (pair? text? HostResult.ofJson?)
      (.array (r.results.map fun entry => .array [ofText entry.1, entry.2.toJson])) = some r.results :=
    list?_map fun entry _ => pair?_array (text?_ofText entry.1) (HostResult.ofJson?_toJson entry.2)
  have hverdict := nullable_ofOption (o := r.verdict) rfl fun v _ => Verdict.ofJson?_toJson v
  have hdataDir := nullable_ofOption (o := r.dataDir) rfl fun d _ => text?_ofText d
  refine bind_of_eq_some ((partOf_record _).fields? (by decide) rfl) ?_
  refine bind_of_eq_some (required_fieldsOf rfl (word64?_ofWord64 r.numNodes)) ?_
  refine bind_of_eq_some (required_fieldsOf rfl (word64?_ofWord64 r.numRounds)) ?_
  refine bind_of_eq_some (required_fieldsOf rfl hpropose.read) ?_
  refine bind_of_eq_some (required_fieldsOf rfl hacknowledge.read) ?_
  refine bind_of_eq_some (required_fieldsOf rfl hvote.read) ?_
  refine bind_of_eq_some (required_fieldsOf rfl hstart.ofJson?_toJson) ?_
  refine bind_of_eq_some (required_fieldsOf rfl hfinish.ofJson?_toJson) ?_
  refine bind_of_eq_some (required_fieldsOf rfl hrounds) ?_
  refine bind_of_eq_some (required_fieldsOf rfl hresults) ?_
  refine bind_of_eq_some (optional_fieldsOf rfl hverdict) ?_
  exact bind_of_eq_some (optional_fieldsOf rfl hdataDir) rfl

theorem RunRecord.wellFormed_toJson (r : RunRecord) : WellFormed r.toJson := by
  have hrounds : WellFormed (.array (r.roundsPerHost.map fun entry => .array [ofText entry.1, ofWord64 entry.2])) :=
    wellFormed_map fun entry _ => wellFormed_pair (wellFormed_ofText entry.1) (wellFormed_ofNat _)
  have hresults : WellFormed (.array (r.results.map fun entry => .array [ofText entry.1, entry.2.toJson])) :=
    wellFormed_map fun entry _ => wellFormed_pair (wellFormed_ofText entry.1) entry.2.wellFormed_toJson
  have hverdict : WellFormed (ofOption Verdict.toJson r.verdict) := wellFormed_ofOption fun v _ => v.wellFormed_toJson
  have hdataDir : WellFormed (ofOption ofText r.dataDir) := wellFormed_ofOption fun d _ => wellFormed_ofText d
  refine wellFormed_record _ _ ?_
  simp only [List.forall_mem_cons]
  exact ⟨wellFormed_ofNat _, wellFormed_ofNat _, wellFormed_ofFloat _, wellFormed_ofFloat _, wellFormed_ofFloat _,
    r.start.wellFormed_toJson, r.finish.wellFormed_toJson, hrounds, hresults, hverdict, hdataDir, List.forall_mem_nil _⟩

/-- The parameters of a benchmark are read back from their value. -/
theorem BenchParams.ofJson?_toJson {p : BenchParams} (hduration : Restorable p.duration)
    (hphases : ∀ phase ∈ [p.proposeDuration, p.acknowledgeDuration, p.voteDuration], ∀ x ∈ phase, Restorable x) :
    ofJson? p.toJson = some p := by
  have hphase : ∀ phase ∈ [p.proposeDuration, p.acknowledgeDuration, p.voteDuration],
      nullable float? (ofOption ofFloat phase) = some phase := fun phase hmem =>
    nullable_ofOption rfl fun x hx => (hphases phase hmem x hx).read
  simp only [List.forall_mem_cons] at hphase
  obtain ⟨hpropose, hacknowledge, hvote, -⟩ := hphase
  have hadversary := nullable_ofOption (o := p.adversary) rfl fun b _ => RoundBound.ofJson?_toJson b
  refine bind_of_eq_some ((partOf_record _).fields? (by decide) rfl) ?_
  refine bind_of_eq_some (required_fieldsOf rfl (word64?_ofWord64 p.numNodes)) ?_
  refine bind_of_eq_some (required_fieldsOf rfl (word64?_ofWord64 p.numRounds)) ?_
  refine bind_of_eq_some (required_fieldsOf rfl hduration.read) ?_
  refine bind_of_eq_some (optional_fieldsOf rfl hpropose) ?_
  refine bind_of_eq_some (optional_fieldsOf rfl hacknowledge) ?_
  refine bind_of_eq_some (optional_fieldsOf rfl hvote) ?_
  refine bind_of_eq_some (required_fieldsOf rfl (word64?_ofWord64 p.startupDelay)) ?_
  refine bind_of_eq_some (required_fieldsOf rfl (word64?_ofWord64 p.connectionLeadTime)) ?_
  refine bind_of_eq_some (optional_fieldsOf rfl hadversary) ?_
  exact bind_of_eq_some (required_fieldsOf rfl (bool?_bool p.sync)) rfl

theorem BenchParams.wellFormed_toJson (p : BenchParams) : WellFormed p.toJson := by
  have hphase : ∀ phase : Option Float, WellFormed (ofOption ofFloat phase) := fun phase =>
    wellFormed_ofOption fun x _ => wellFormed_ofFloat x
  have hadversary : WellFormed (ofOption RoundBound.toJson p.adversary) := wellFormed_ofOption fun _ _ =>
    wellFormed_ofText _
  refine wellFormed_record _ _ ?_
  simp only [List.forall_mem_cons]
  exact ⟨wellFormed_ofNat _, wellFormed_ofNat _, wellFormed_ofFloat _, hphase _, hphase _, hphase _,
    wellFormed_ofNat _, wellFormed_ofNat _, hadversary, .bool _, List.forall_mem_nil _⟩

/-- A plan is read back from its value, if its counts are words. -/
theorem Plan.ofJson?_toJson {p : Plan} (hwords : ∀ entry ∈ p.counts, entry.2 < wordLimit) :
    ofJson? p.toJson = some p := by
  have hcounts : list? (pair? Region.ofJson? (natBelow? wordLimit))
      (.array (p.counts.map fun entry => .array [entry.1.toJson, ofNat entry.2])) = some p.counts :=
    list?_map fun entry hentry =>
      pair?_array (Region.ofJson?_toJson entry.1) (natBelow?_ofNat (hwords entry hentry))
  refine bind_of_eq_some ((partOf_record _).fields? (by decide) rfl) ?_
  exact bind_of_eq_some (required_fieldsOf rfl hcounts) rfl

theorem Plan.wellFormed_toJson (p : Plan) : WellFormed p.toJson := by
  have hcounts : WellFormed (.array (p.counts.map fun entry => .array [entry.1.toJson, ofNat entry.2])) :=
    wellFormed_map fun entry _ => wellFormed_pair (wellFormed_ofText _) (wellFormed_ofNat _)
  refine wellFormed_record _ _ ?_
  simp only [List.forall_mem_cons]
  exact ⟨hcounts, List.forall_mem_nil _⟩

/-- An instance is read back from its value. -/
theorem Instance.ofJson?_toJson (i : Instance) : ofJson? i.toJson = some i := by
  have haddress := nullable_ofOption (o := i.address) rfl fun a _ => text?_ofText a
  have hstatus := nullable_ofOption (o := i.status) rfl fun s _ => text?_ofText s
  refine bind_of_eq_some ((partOf_record _).fields? (by decide) rfl) ?_
  refine bind_of_eq_some (required_fieldsOf rfl (text?_ofText i.id)) ?_
  refine bind_of_eq_some (required_fieldsOf rfl (Region.ofJson?_toJson i.region)) ?_
  refine bind_of_eq_some (optional_fieldsOf rfl haddress) ?_
  refine bind_of_eq_some (required_fieldsOf rfl (InstanceState.ofJson?_toJson i.state)) ?_
  refine bind_of_eq_some (required_fieldsOf rfl (bool?_bool i.reachable)) ?_
  exact bind_of_eq_some (optional_fieldsOf rfl hstatus) rfl

theorem Instance.wellFormed_toJson (i : Instance) : WellFormed i.toJson := by
  have htext : ∀ o : Option String, WellFormed (ofOption ofText o) := fun o =>
    wellFormed_ofOption fun s _ => wellFormed_ofText s
  refine wellFormed_record _ _ ?_
  simp only [List.forall_mem_cons]
  exact ⟨wellFormed_ofText _, wellFormed_ofText _, htext _, wellFormed_ofText _, .bool _, htext _,
    List.forall_mem_nil _⟩

/-! ## Texts -/

/-- **What is stored is read back.** Records of runs, parameters, plans and instances, printed on one line or on many,
are read as what they were; floats must be finite and be read back from their own texts, instants be ones of the clock
with years of four digits, and the counts of a plan be words. -/
theorem stored_values_are_read_back :
    (∀ r : RunRecord, (∀ x ∈ [r.proposeDuration, r.acknowledgeDuration, r.voteDuration], Restorable x) →
      (∀ t ∈ [r.start, r.finish], t.Storable) →
      ∀ text ∈ [r.toJson.compact, r.toJson.pretty], RunRecord.read? text = some r)
    ∧ (∀ p : BenchParams, Restorable p.duration →
      (∀ phase ∈ [p.proposeDuration, p.acknowledgeDuration, p.voteDuration], ∀ x ∈ phase, Restorable x) →
      ∀ text ∈ [p.toJson.compact, p.toJson.pretty], (Json.read? text).bind BenchParams.ofJson? = some p)
    ∧ (∀ p : Plan, (∀ entry ∈ p.counts, entry.2 < wordLimit) →
      ∀ text ∈ [p.toJson.compact, p.toJson.pretty], (Json.read? text).bind Plan.ofJson? = some p)
    ∧ (∀ i : Instance,
      ∀ text ∈ [i.toJson.compact, i.toJson.pretty], (Json.read? text).bind Instance.ofJson? = some i) := by
  refine ⟨fun r hfloats hinstants text htext => ?_, fun p hduration hphases text htext => ?_,
    fun p hwords text htext => ?_, fun i text htext => ?_⟩
  · rw [RunRecord.read?, r.wellFormed_toJson.read?_print htext]
    exact RunRecord.ofJson?_toJson hfloats hinstants
  · rw [p.wellFormed_toJson.read?_print htext]
    exact BenchParams.ofJson?_toJson hduration hphases
  · rw [p.wellFormed_toJson.read?_print htext]
    exact Plan.ofJson?_toJson hwords
  · rw [i.wellFormed_toJson.read?_print htext]
    exact i.ofJson?_toJson

/-- A run that ended in a leap second, on hosts with quotes, a backslash and a control character in their names. -/
def RunRecord.sample : RunRecord where
  numNodes := 3
  numRounds := 18446744073709551615
  proposeDuration := 2.0
  acknowledgeDuration := 0.1
  voteDuration := 1e-7
  start := ⟨1704103200, 750000000⟩
  finish := ⟨1483228799, 1000000001⟩
  roundsPerHost := [("a\"\\", 7), ("\x01é", 0)]
  results := [("a\"\\", .ok), ("\x01é", .missing "no\nresult: \"\"")]
  verdict := some .failed
  dataDir := none

/-- A whole run and its parameters: the bounds are met, and the texts are read back. -/
theorem stored_values_are_read_back_leap_second :
    (∀ text ∈ [RunRecord.sample.toJson.compact, RunRecord.sample.toJson.pretty],
      RunRecord.read? text = some RunRecord.sample)
    ∧ (∀ text ∈ [(BenchParams.mk 3 5 2.0 (some 0.1) none none 60 20 (some .inclusive) true).toJson.compact],
      (Json.read? text).bind BenchParams.ofJson?
        = some (BenchParams.mk 3 5 2.0 (some 0.1) none none 60 20 (some .inclusive) true))
    ∧ (∀ text ∈ [(Plan.mk [(⟨"eu-west-3"⟩, 2), (⟨"eu-west-3"⟩, 0)]).toJson.pretty],
      (Json.read? text).bind Plan.ofJson? = some (Plan.mk [(⟨"eu-west-3"⟩, 2), (⟨"eu-west-3"⟩, 0)])) := by
  have htwo : Restorable 2.0 := ⟨by decide +kernel, by decide +kernel⟩
  have htenth : Restorable 0.1 := ⟨by decide +kernel, by decide +kernel⟩
  have hsmall : Restorable 1e-7 := ⟨by decide +kernel, by decide +kernel⟩
  have hstart : RunRecord.sample.start.Storable := ⟨.inl (by decide), by decide⟩
  have hfinish : RunRecord.sample.finish.Storable := ⟨.inr (by decide), by decide⟩
  refine ⟨fun text htext => ?_, fun text htext => ?_, fun text htext => ?_⟩
  · refine stored_values_are_read_back.1 RunRecord.sample ?_ ?_ text htext
    · simp only [List.forall_mem_cons]
      exact ⟨htwo, htenth, hsmall, List.forall_mem_nil _⟩
    · simp only [List.forall_mem_cons]
      exact ⟨hstart, hfinish, List.forall_mem_nil _⟩
  · refine stored_values_are_read_back.2.1 _ htwo ?_ text (List.mem_cons.mpr (.inl (List.mem_singleton.mp htext)))
    rintro phase hphase x hx
    obtain rfl : x = 0.1 := by simp_all
    exact htenth
  · refine stored_values_are_read_back.2.2.1 _ (by decide) text ?_
    exact List.mem_cons_of_mem _ htext

end CloudFleet
