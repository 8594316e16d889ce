import CloudFleet.Proofs.Json.Scalars

/-!
# Floats are written as numerals

A finite float is stored as a numeral of the grammar: its digits have no zero in front but before a point, and what
stands behind a point or an exponent mark is digits (`isNumeral_recordText`). For that the shortest decimal has a digit
that is not zero unless it is zero itself (`Decimal.Proper`), and the bits of a finite float are below those of the
infinite one (`toBits_of_isFinite`).
-/

set_option autoImplicit false

namespace CloudFleet

open Json

namespace Decimal

/-! ## Finite floats -/

/-- The exponent bits of a finite float are not all set. -/
theorem toBits_of_isFinite {x : Float} (h : x.isFinite = true) : x.toBits.toNat % (1 <<< 63) < 0x7FF <<< 52 := by
  refine Nat.lt_of_not_le fun hle => ?_
  have hbits : x.toModel.toBits.toBitVec.toNat = x.toBits.toNat := rfl
  have hexponent : @Float.Model.UnpackedFloat.unpackExponent .binary64 x.toModel.toBits.toBitVec = -1#11 := by
    apply BitVec.eq_of_toNat_eq
    simp only [Float.Model.UnpackedFloat.unpackExponent, BitVec.toNat_cast, BitVec.extractLsb, BitVec.extractLsb',
      BitVec.toNat_ofNat, hbits, Nat.shiftRight_eq_div_pow]
    have hlt := x.toBits.toNat_lt
    have hone : (-1#11).toNat = 2047 := by decide
    simp only [Nat.shiftLeft_eq] at hle
    rw [hone]
    omega
  have hfinite : x.isFinite = (Float.Model.UnpackedFloat.unpack .binary64 x.toModel.toBits.toBitVec).isFinite := rfl
  rw [hfinite] at h
  delta Float.Model.UnpackedFloat.unpack at h
  rw [hexponent] at h
  simp only [↓reduceIte] at h
  split at h <;> cases h

/-! ## Shortest decimals -/

/-- A decimal with a digit that is not zero, or zero as it is written. -/
def Proper (d : Decimal) : Prop := d.digits = 0 → d.exponent = 0

theorem digits_onGrid {tie : Tie} {even : Bool} {low value high den : Nat} {e : Int} {d : Decimal}
    (h : onGrid tie even low value high den e = some d) : d.digits ≠ 0 := by
  obtain ⟨floor, below, above, nearer, heq⟩ : ∃ (floor : Nat) (below above nearer : Bool),
      onGrid tie even low value high den e = if below && decide (0 < floor) && nearer then some ⟨floor, e⟩
        else if above then some ⟨floor + 1, e⟩ else none := ⟨_, _, _, _, rfl⟩
  rw [heq] at h
  split at h
  · rename_i hfloor
    simp only [Bool.and_eq_true, decide_eq_true_eq] at hfloor
    cases h
    exact Nat.ne_of_gt hfloor.1.2
  · split at h
    · cases h
      exact Nat.succ_ne_zero floor
    · cases h

theorem proper_firstOnGrid (tie : Tie) (even : Bool) (low value high den : Nat) (e : Int) (n : Nat) :
    (firstOnGrid tie even low value high den e n).Proper := by
  induction n generalizing e with
  | zero => exact fun _ => rfl
  | succ n ih =>
    unfold firstOnGrid
    split
    · rename_i hd
      exact fun hzero => absurd hzero (digits_onGrid hd)
    · exact ih (e - 1)

theorem proper_shortest (tie : Tie) (b : Binary) : (shortest tie b).Proper :=
  proper_firstOnGrid _ _ _ _ _ _ _ _

theorem dropZeros_eq_zero {n : Nat} (h : (dropZeros n).1 = 0) : n = 0 := by
  induction n using dropZeros.induct with
  | case1 n hstop => rwa [dropZeros, dif_pos hstop] at h
  | case2 n hgo ih =>
    rw [dropZeros, dif_neg hgo] at h
    have hquot := ih h
    omega

theorem dropZeros_zero : dropZeros 0 = (0, 0) := by rw [dropZeros, dif_pos (.inl rfl)]

/-- Dropping zeros at the end of the digits leaves a proper decimal. -/
theorem Proper.canonical {d : Decimal} (h : d.Proper) : d.canonical.Proper := by
  intro hzero
  have hdigits : d.digits = 0 := dropZeros_eq_zero hzero
  show d.exponent + ((dropZeros d.digits).2 : Int) = 0
  rw [hdigits, dropZeros_zero, h hdigits]
  rfl

/-! ## Digits around a point -/

theorem isWhole_take {ds : List Char} (h : IsWhole ds) {n : Nat} (hn : 0 < n) : IsWhole (ds.take n) := by
  obtain ⟨n, rfl⟩ := Nat.exists_eq_add_of_lt hn
  rw [Nat.zero_add, Nat.add_comm]
  cases h with
  | zero => rw [Nat.add_comm, List.take_succ_cons, List.take_nil]; exact .zero
  | digits hd hne hds =>
    rw [Nat.add_comm, List.take_succ_cons]
    exact .digits hd hne fun c hc => hds c (List.mem_of_mem_take hc)

/-- The characters of a whole part are digits. -/
theorem isDigit_of_isWhole {ds : List Char} (h : IsWhole ds) : ∀ c ∈ ds, c.isDigit = true := by
  cases h with
  | zero => simp
  | digits hd _ hds => exact List.forall_mem_cons.mpr ⟨hd, hds⟩

/-- Digits with a point among them: a whole part and a fraction. -/
theorem pointed_eq {ds : List Char} (h : IsWhole ds) (places : Nat) :
    ∃ whole fraction, pointed ds places = whole ++ fraction ∧ IsWhole whole ∧ IsFraction fraction := by
  have hdigits := isDigit_of_isWhole h
  have hpositive : 0 < ds.length := by
    obtain ⟨c, cs, rfl, -⟩ := h.exists_cons
    simp
  let padded := List.replicate (places + 1 - ds.length) '0' ++ ds
  have hlength : padded.length = places + 1 - ds.length + ds.length := by simp [padded]
  have hpadded : ∀ c ∈ padded, c.isDigit = true := by
    intro c hc
    rcases List.mem_append.mp hc with hc | hc
    · rw [List.eq_of_mem_replicate hc]; decide
    · exact hdigits c hc
  refine ⟨_, _, rfl, ?_, ?_⟩
  · -- without zeros in front the digits are long enough, and with them the whole part is one zero
    show IsWhole (padded.take (padded.length - places))
    by_cases hlong : places < ds.length
    · have hnone : places + 1 - ds.length = 0 := by omega
      have heq : padded = ds := by simp [padded, hnone]
      rw [heq]
      exact isWhole_take h (by omega)
    · obtain ⟨n, hn⟩ : ∃ n, places + 1 - ds.length = n + 1 := ⟨places - ds.length, by omega⟩
      have hone : padded.length - places = 1 := by omega
      have heq : padded = '0' :: (List.replicate n '0' ++ ds) := by
        show List.replicate _ '0' ++ ds = _
        rw [hn, List.replicate_succ, List.cons_append]
      rw [hone, heq]
      exact .zero
  · by_cases hplaces : places = 0
    · rw [if_pos hplaces]; exact .none
    · rw [if_neg hplaces]
      refine .digits (fun hnil => ?_) fun c hc => hpadded c (List.mem_of_mem_drop hc)
      have hall : padded.length ≤ padded.length - places := List.drop_eq_nil_iff.mp hnil
      omega

theorem isFraction_zero : IsFraction ['.', '0'] :=
  .digits (by decide) (List.forall_mem_singleton.mpr (by decide))

/-- A decimal without exponent: a whole part and a fraction. -/
theorem positionalText_eq {d : Decimal} (hd : d.Proper) : ∃ whole fraction,
    Layout.record.positionalText d = whole ++ fraction ∧ IsWhole whole ∧ IsFraction fraction := by
  have hwhole := isWhole_toDigits d.digits
  unfold Layout.positionalText
  dsimp only
  split
  · refine ⟨Nat.toDigits 10 d.digits ++ List.replicate d.exponent.toNat '0', ['.', '0'], rfl, ?_, isFraction_zero⟩
    cases hdigits : Nat.toDigits 10 d.digits with
    | nil => exact absurd hdigits Nat.toDigits_ne_nil
    | cons c cs =>
      rw [hdigits] at hwhole
      have hzeros : ∀ c ∈ List.replicate d.exponent.toNat '0', c.isDigit = true := fun c hc => by
        rw [List.eq_of_mem_replicate hc]; decide
      cases hwhole with
      | zero =>
        -- only zero begins with a zero, and zero has no zeros behind it
        have hzero : d.digits = 0 := by rw [← digitsValue_toDigits d.digits, hdigits]; rfl
        rw [hd hzero]
        exact .zero
      | digits hc hne hcs =>
        exact .digits hc hne fun c hc => (List.mem_append.mp hc).elim (hcs c) (hzeros c)
  · exact pointed_eq hwhole _

/-- A decimal with an exponent: a whole part, a fraction and the exponent. -/
theorem scientificText_eq (d : Decimal) : ∃ whole fraction exponent,
    scientificText d = whole ++ fraction ++ exponent ∧ IsWhole whole ∧ IsFraction fraction
      ∧ IsExponent exponent := by
  obtain ⟨whole, fraction, heq, hw, hf⟩ :=
    pointed_eq (isWhole_toDigits d.digits) ((Nat.toDigits 10 d.digits).length - 1)
  refine ⟨whole, fraction, _, congrArg (· ++ _) heq, hw, hf, ?_⟩
  refine .signed (.inl rfl) ?_ Nat.toDigits_ne_nil (isDigit_toDigits _)
  split
  · exact .inr rfl
  · exact .inl rfl

/-- A decimal in the format of stored data: the parts of a numeral without a sign. -/
theorem magnitudeText_eq {d : Decimal} (hd : d.Proper) : ∃ whole fraction exponent,
    Layout.record.magnitudeText d = whole ++ fraction ++ exponent ∧ IsWhole whole ∧ IsFraction fraction
      ∧ IsExponent exponent := by
  obtain ⟨whole, fraction, heq, hw, hf⟩ := positionalText_eq hd
  have hcases : Layout.record.magnitudeText d
      = if -5 ≤ d.leading ∧ d.leading ≤ 15 then Layout.record.positionalText d else scientificText d := rfl
  rw [hcases]
  split
  · exact ⟨whole, fraction, [], by rw [List.append_nil, heq], hw, hf, .none⟩
  · exact scientificText_eq d

/-- **A finite float is stored as a numeral.** -/
theorem isNumeral_recordText {x : Float} (h : x.isFinite = true) : IsNumeral (Layout.record.text x).toList := by
  have hbits := toBits_of_isFinite h
  unfold Layout.text
  dsimp only
  rw [if_neg (Nat.lt_asymm hbits), if_neg (Nat.ne_of_lt hbits), String.toList_ofList]
  obtain ⟨whole, fraction, exponent, heq, hw, hf, he⟩ : ∃ whole fraction exponent,
      (if x.toBits.toNat % (1 <<< 63) = 0 then Layout.record.positionalText ⟨0, 0⟩
        else Layout.record.magnitudeText
          (shortest Layout.record.tie (.ofBits (x.toBits.toNat % (1 <<< 63)))).canonical)
      = whole ++ fraction ++ exponent ∧ IsWhole whole ∧ IsFraction fraction ∧ IsExponent exponent := by
    split
    · exact ⟨['0'], ['.', '0'], [], rfl, .zero, isFraction_zero, .none⟩
    · exact magnitudeText_eq (proper_shortest _ _).canonical
  rw [heq]
  split
  · exact @IsNumeral.parts ['-'] _ _ _ .minus hw hf he
  · exact .parts .none hw hf he

end Decimal

namespace Json

/-- A float is well formed where it stands for itself, and null where it does not. -/
theorem wellFormed_ofFloat (x : Float) : WellFormed (ofFloat x) := by
  unfold ofFloat
  split
  · rename_i h
    exact .number (Decimal.isNumeral_recordText h)
  · exact .null

end Json

end CloudFleet
