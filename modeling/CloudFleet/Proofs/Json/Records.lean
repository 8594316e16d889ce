import CloudFleet.Proofs.Json.Scalars

/-!
# Objects with some of the fields of a record

`PartOf kept whole part` says how the object `part` comes from the object `whole`: members whose names are not kept are
deleted, those that are left stand in any order, and members with names that are unknown to `whole` are added. What a
reader finds in a part of a record is at each place the value of the field, or nothing where the field is not kept
(`PartOf.fields?`); so a field that is read with a default is the value or the default (`orElse_fieldsOf`), and in a
record that has all its fields each is its value (`required_fieldsOf`, `optional_fieldsOf`).
-/

set_option autoImplicit false

namespace CloudFleet.Json

variable {α β : Type}

/-- The name that a key is written for. -/
def nameOf (key : List Char) : String := .ofList ((unquote? key).getD [])

/-- The second object has the members of the first one whose names are kept, in any order, and others whose names are
unknown to the first one. -/
inductive PartOf (kept : String → Bool) : Json → Json → Prop
  | object {whole part others : List (List Char × Json)}
      (hperm : part.Perm ((whole.filter fun m => kept (nameOf m.1)) ++ others))
      (hothers : ∀ m ∈ others, ∃ name, unquote? m.1 = some name ∧ ∀ known ∈ whole, unquote? known.1 ≠ some name) :
      PartOf kept (.object whole) (.object part)

/-- What a reader finds at the places of the fields. -/
def fieldsOf (fields : List (String × Json)) (kept : String → Bool) : Fields :=
  ⟨fields.map fun m => if kept m.1 then some m.2 else none, false⟩

@[simp] theorem nameOf_quote (name : String) : nameOf (quote name.toList) = name := by simp [nameOf]

/-- An object is a part of itself. -/
theorem partOf_record (fields : List (String × Json)) : PartOf (fun _ => true) (record fields) (record fields) := by
  refine .object ?_ (List.forall_mem_nil _)
  rw [List.filter_eq_self.mpr fun _ _ => rfl, List.append_nil]

section Parts

variable {fields : List (String × Json)} {kept : String → Bool}

theorem valuesOf_append (name : String) (ms ms' : List (List Char × Json)) :
    valuesOf name (ms ++ ms') = valuesOf name ms ++ valuesOf name ms' := List.filterMap_append

theorem valuesOf_eq_nil {name : String} {ms : List (List Char × Json)}
    (h : ∀ m ∈ ms, unquote? m.1 ≠ some name.toList) : valuesOf name ms = [] := by
  rw [valuesOf, List.filterMap_eq_nil_iff]
  intro m hm
  rw [if_neg (h m hm)]

/-- The members of a part of a record: the kept ones under their names, and others with names of their own. -/
theorem PartOf.of_record {j : Json} (h : PartOf kept (record fields) j) :
    ∃ part others, j = .object part
      ∧ part.Perm (((fields.filter fun m => kept m.1).map fun m => (quote m.1.toList, m.2)) ++ others)
      ∧ ∀ m ∈ others, ∃ name : String, unquote? m.1 = some name.toList ∧ name ∉ fields.map Prod.fst := by
  cases h with
  | object hperm hothers =>
    rename_i part others
    refine ⟨part, others, rfl, ?_, fun m hm => ?_⟩
    · simpa [List.filter_map, Function.comp_def] using hperm
    · obtain ⟨name, hname, hnot⟩ := hothers m hm
      refine ⟨.ofList name, by simpa using hname, fun hmem => ?_⟩
      obtain ⟨field, hfield, heq⟩ := List.mem_map.mp hmem
      refine hnot _ (List.mem_map.mpr ⟨field, hfield, rfl⟩) ?_
      simp [heq]

/-- A record of some of the fields, in any order and among fields with other names. -/
theorem partOf_of_perm {part : List (String × Json)} (others : List (String × Json))
    (hperm : part.Perm ((fields.filter fun m => kept m.1) ++ others))
    (hothers : ∀ m ∈ others, m.1 ∉ fields.map Prod.fst) : PartOf kept (record fields) (record part) := by
  refine @PartOf.object kept _ _ (others.map fun m => (quote m.1.toList, m.2)) ?_
    (List.forall_mem_map.mpr fun m hm => ?_)
  · simpa [List.filter_map, Function.comp_def] using hperm.map fun m => (quote m.1.toList, m.2)
  · refine ⟨m.1.toList, unquote?_quote _, List.forall_mem_map.mpr fun field hfield heq => hothers m hm ?_⟩
    rw [unquote?_quote, Option.some.injEq, String.toList_inj] at heq
    exact List.mem_map.mpr ⟨field, hfield, heq⟩

/-- A kept field stands once under its name, and another not at all. -/
theorem valuesOf_kept (hn : (fields.map Prod.fst).Nodup) {name : String} {value : Json} (h : (name, value) ∈ fields) :
    valuesOf name ((fields.filter fun m => kept m.1).map fun m => (quote m.1.toList, m.2))
      = (if kept name then some value else none).toList := by
  induction fields with
  | nil => cases h
  | cons m fields ih =>
    obtain ⟨hm, hn⟩ := List.nodup_cons.mp hn
    by_cases hname : m.1 = name
    · -- no field behind this one has its name
      have hrest : valuesOf name ((fields.filter fun m => kept m.1).map fun m => (quote m.1.toList, m.2)) = [] := by
        refine valuesOf_eq_nil (List.forall_mem_map.mpr fun m' hm' heq => hm ?_)
        rw [unquote?_quote, Option.some.injEq, String.toList_inj] at heq
        exact List.mem_map.mpr ⟨m', (List.mem_filter.mp hm').1, heq.trans hname.symm⟩
      have hvalue : m = (name, value) := by
        rcases List.mem_cons.mp h with h | h
        · exact h.symm
        · exact absurd (List.mem_map.mpr ⟨_, h, hname.symm⟩) hm
      subst hvalue
      by_cases hk : kept name = true
      · simpa [hk, valuesOf] using hrest
      · simpa [List.filter_cons, hk] using hrest
    · have hmem : (name, value) ∈ fields := by
        rcases List.mem_cons.mp h with h | h
        · exact absurd (congrArg Prod.fst h).symm hname
        · exact h
      rw [← ih hn hmem]
      by_cases hk : kept m.1 = true
      · simp [hk, valuesOf, String.toList_inj, hname]
      · simp [hk]

/-- What stands under the name of a field, in any order of the kept fields and others. -/
theorem valuesOf_of_perm (hn : (fields.map Prod.fst).Nodup) {part others : List (List Char × Json)}
    (hperm : part.Perm (((fields.filter fun m => kept m.1).map fun m => (quote m.1.toList, m.2)) ++ others))
    (hothers : ∀ m ∈ others, ∃ name : String, unquote? m.1 = some name.toList ∧ name ∉ fields.map Prod.fst)
    {m : String × Json} (hm : m ∈ fields) :
    valuesOf m.1 part = (if kept m.1 then some m.2 else none).toList := by
  have hrest : valuesOf m.1 others = [] := by
    refine valuesOf_eq_nil fun other hother heq => ?_
    obtain ⟨name, hname, hnot⟩ := hothers other hother
    obtain rfl : name = m.1 := String.toList_inj.mp (Option.some.inj (hname.symm.trans heq))
    exact hnot (List.mem_map.mpr ⟨m, hm, rfl⟩)
  have heq := valuesOf_append m.1 ((fields.filter fun m => kept m.1).map fun m => (quote m.1.toList, m.2)) others
  rw [valuesOf_kept hn hm, hrest, List.append_nil] at heq
  have hvalues : (valuesOf m.1 part).Perm (if kept m.1 then some m.2 else none).toList := by
    rw [← heq]
    exact hperm.filterMap _
  cases hk : kept m.1 <;> simp_all

/-- **What a reader finds in a part of a record**, given by the names of its fields and their values. -/
theorem PartOf.fields? {names : List String} {values : List Json} (hn : names.Nodup)
    (hlength : names.length = values.length) {j : Json} (h : PartOf kept (record (names.zip values)) j) :
    Json.fields? names j = some (fieldsOf (names.zip values) kept) := by
  obtain ⟨part, others, rfl, hperm, hothers⟩ := h.of_record
  have hnames : (names.zip values).map Prod.fst = names := List.map_fst_zip (Nat.le_of_eq hlength)
  generalize names.zip values = fields at hperm hothers hnames ⊢
  subst hnames
  have hvalues : ∀ m ∈ fields, valuesOf m.1 part = (if kept m.1 then some m.2 else none).toList :=
    fun m hm => valuesOf_of_perm hn hperm hothers hm
  have hkeys : part.all (fun m => (unquote? m.1).isSome) = true := by
    refine List.all_eq_true.mpr fun m hm => ?_
    rcases List.mem_append.mp (hperm.mem_iff.mp hm) with hm | hm
    · obtain ⟨m, -, rfl⟩ := List.mem_map.mp hm
      simp
    · obtain ⟨name, hname, -⟩ := hothers m hm
      rw [hname]
      rfl
  have honce : (fields.map Prod.fst).all (fun n => decide ((valuesOf n part).length ≤ 1)) = true := by
    refine List.all_eq_true.mpr fun n hn => ?_
    obtain ⟨m, hm, rfl⟩ := List.mem_map.mp hn
    rw [hvalues m hm]
    cases kept m.1 <;> simp
  rw [Json.fields?, hkeys, honce, List.map_map]
  refine congrArg some (congrArg (Fields.mk · false) (List.map_congr_left fun m hm => ?_))
  show (valuesOf m.1 part).head? = _
  rw [hvalues m hm]
  cases kept m.1 <;> simp

/-- A field with a default: its value if it is kept. -/
theorem orElse_fieldsOf {i : Nat} {name : String} {value : Json} (hi : fields[i]? = some (name, value))
    {read : Json → Option α} {a : α} (hread : read value = some a) (default : α) :
    (fieldsOf fields kept).orElse i default read = some (if kept name then a else default) := by
  have hslot : (fieldsOf fields kept).slot i = if kept name then some value else none := by
    simp [fieldsOf, Fields.slot, hi]
  unfold Fields.orElse
  rw [hslot]
  cases kept name <;> simp [hread]

section Whole

variable {i : Nat} {name : String} {value : Json} (hi : fields[i]? = some (name, value)) {read : Json → Option α}
include hi

theorem slot_fieldsOf : (fieldsOf fields fun _ => true).slot i = some value := by
  simp [fieldsOf, Fields.slot, hi]

/-- A field of a whole record. -/
theorem required_fieldsOf {a : α} (hread : read value = some a) :
    (fieldsOf fields fun _ => true).required i read = some a := by
  rw [Fields.required, slot_fieldsOf hi, Option.bind_some, hread]

/-- A field of a whole record that may be null. -/
theorem optional_fieldsOf {a : Option α} (hread : nullable read value = some a) :
    (fieldsOf fields fun _ => true).optional i read = some a := by
  rw [Fields.optional, slot_fieldsOf hi]
  exact hread

end Whole

/-- A record is well formed if its values are. -/
theorem wellFormed_record (names : List String) (values : List Json) (h : ∀ value ∈ values, WellFormed value) :
    WellFormed (record (names.zip values)) := by
  refine .object (List.forall_mem_map.mpr fun m _ => isWritten_quote m.1.toList)
    (List.forall_mem_map.mpr fun m hm => h m.2 (List.of_mem_zip hm).2)

end Parts

/-- One value after the other: the value is there, and so the next one is asked for. -/
theorem bind_of_eq_some {x : Option α} {a : α} (hx : x = some a) {f : α → Option β} {y : Option β} (hf : f a = y) :
    (x >>= f) = y := by
  rw [hx, Option.bind_eq_bind, Option.bind_some, hf]

end CloudFleet.Json
