import CloudFleet.Json.Fields
import CloudFleet.Proofs.Json.Grammar

/-!
# Scalars, lists and pairs are read back

Texts are read back from their written form (`unquote?_quote`), whatever characters are in them, and numbers from their
digits (`digitsValue_toDigits`). What is built from such values, a nullable value, a list or a pair, is read back if
its parts are. Each lemma on reading has a companion on form: what is written is well formed.
-/

set_option autoImplicit false

namespace CloudFleet.Json

open Text (digitsValue hexDigit)

variable {α β : Type}

/-! ## Texts -/

/-- Hexadecimal digits are read back. -/
theorem hexValue?_hexDigit : ∀ n < 16, hexValue? (hexDigit n) = some n := by decide

/-- The code unit of an escaped control character. -/
theorem unit?_control {n : Nat} (hn : n < 32) :
    unit? '0' '0' (hexDigit (n / 16)) (hexDigit (n % 16)) = some n := by
  have hzero : hexValue? '0' = some 0 := by decide
  simp only [unit?, hzero, hexValue?_hexDigit _ (show n / 16 < 16 by omega),
    hexValue?_hexDigit _ (show n % 16 < 16 by omega), Option.bind_eq_bind, Option.bind_some, Option.pure_def,
    Option.some.injEq]
  omega

/-- How a character is written: by an escape of one letter, by its code, or as it is. -/
theorem quoteChar_cases (c : Char) :
    (∃ d, quoteChar c = ['\\', d] ∧ d ≠ 'u' ∧ escaped? d = some c)
    ∨ (c.toNat < 32 ∧ quoteChar c = ['\\', 'u', '0', '0', hexDigit (c.toNat / 16), hexDigit (c.toNat % 16)])
    ∨ (quoteChar c = [c] ∧ c ≠ '"' ∧ c ≠ '\\' ∧ 32 ≤ c.toNat) := by
  have heq : ∀ n : Nat, n < 32 → c.toNat = n → c = Char.ofNat n := fun n _ h => by rw [← h, Char.ofNat_toNat]
  unfold quoteChar
  split
  · rename_i h; subst h; exact .inl ⟨_, rfl, by decide, by decide⟩
  split
  · rename_i h; subst h; exact .inl ⟨_, rfl, by decide, by decide⟩
  split
  · rename_i h; exact .inl ⟨_, rfl, by decide, by rw [heq 8 (by decide) h]; decide⟩
  split
  · rename_i h; exact .inl ⟨_, rfl, by decide, by rw [heq 9 (by decide) h]; decide⟩
  split
  · rename_i h; exact .inl ⟨_, rfl, by decide, by rw [heq 10 (by decide) h]; decide⟩
  split
  · rename_i h; exact .inl ⟨_, rfl, by decide, by rw [heq 12 (by decide) h]; decide⟩
  split
  · rename_i h; exact .inl ⟨_, rfl, by decide, by rw [heq 13 (by decide) h]; decide⟩
  split
  · rename_i h; exact .inr (.inl ⟨h, rfl⟩)
  · rename_i hquote hslash _ _ _ _ _ h
    exact .inr (.inr ⟨rfl, hquote, hslash, Nat.le_of_not_lt h⟩)

theorem unquote?_quoteChar (c : Char) (rest : List Char) :
    unquote? (quoteChar c ++ rest) = (unquote? rest).map (c :: ·) := by
  rcases quoteChar_cases c with ⟨d, heq, hu, hd⟩ | ⟨hc, heq⟩ | ⟨heq, hquote, hslash, hc⟩
  · have hletter : unquote? ('\\' :: d :: rest)
        = escaped? d >>= fun c => unquote? rest >>= fun tail => pure (c :: tail) := by
      cases rest <;> simp [unquote?, hu]
    rw [heq, List.cons_append, List.cons_append, List.nil_append, hletter, hd]
    cases unquote? rest <;> rfl
  · have hlow : ¬ (0xDC00 ≤ c.toNat ∧ c.toNat ≤ 0xDFFF) := by omega
    have hhigh : ¬ (0xD800 ≤ c.toNat ∧ c.toNat ≤ 0xDBFF) := by omega
    rw [heq]
    simp only [List.cons_append, List.nil_append, unquote?, unit?_control hc, Option.bind_eq_bind,
      Option.bind_some, if_neg hlow, if_neg hhigh, Char.ofNat_toNat]
    cases unquote? rest <;> rfl
  · have hplain : ¬ (c = '"' ∨ c.toNat < 32) := by simp only [hquote, false_or]; omega
    have hitself : unquote? (c :: rest) = unquote? rest >>= fun tail => pure (c :: tail) := by
      simp [unquote?, hslash, hplain]
    rw [heq, List.cons_append, List.nil_append, hitself]
    cases unquote? rest <;> rfl

/-- **Every text is read back from its written form.** -/
@[simp] theorem unquote?_quote (cs : List Char) : unquote? (quote cs) = some cs := by
  induction cs with
  | nil => simp [quote, unquote?]
  | cons c cs ih =>
    have hcons : quote (c :: cs) = quoteChar c ++ quote cs := rfl
    rw [hcons, unquote?_quoteChar, ih]
    rfl

/-- The written form of a text may stand between quotes. -/
theorem isWritten_quote (cs : List Char) : IsWritten (quote cs) := by
  induction cs with
  | nil => exact .nil
  | cons c cs ih =>
    have hcons : quote (c :: cs) = quoteChar c ++ quote cs := rfl
    rw [hcons]
    rcases quoteChar_cases c with ⟨d, heq, -, hd⟩ | ⟨hc, heq⟩ | ⟨heq, hquote, hslash, hc⟩
    · rw [heq]
      exact .escape (by rw [hd]; rfl) ih
    · rw [heq]
      exact .unit (by rw [unit?_control hc]; rfl) ih
    · rw [heq]
      exact .plain hquote hslash hc ih

@[simp] theorem text?_ofText (s : String) : text? (ofText s) = some s := by simp [text?, ofText]

@[simp] theorem name?_ofText (s : String) : name? (ofText s) = some s := text?_ofText s

theorem wellFormed_ofText (s : String) : WellFormed (ofText s) := .string (isWritten_quote s.toList)

/-! ## Numbers -/

/-- The value of digits is that of their places. -/
theorem digitsValue_eq (cs : List Char) : digitsValue cs = Nat.ofDigitChars 10 cs 0 := by
  simp only [digitsValue, Nat.ofDigitChars_eq_foldl, Nat.mul_comm]
  rfl

@[simp] theorem digitsValue_toDigits (n : Nat) : digitsValue (Nat.toDigits 10 n) = n := by
  rw [digitsValue_eq, Nat.ofDigitChars_ten_toDigits]

theorem isDigit_toDigits (n : Nat) : ∀ c ∈ Nat.toDigits 10 n, c.isDigit = true := fun _ hc =>
  Nat.isDigit_of_mem_toDigits (by decide) (by decide) hc

/-- The digits of a number are a whole part: only zero begins with a zero. -/
theorem isWhole_toDigits (n : Nat) : IsWhole (Nat.toDigits 10 n) := by
  induction n using Nat.strongRecOn with
  | ind n ih =>
    by_cases hn : n < 10
    · rw [Nat.toDigits_of_lt_base hn]
      by_cases hzero : n = 0
      · subst hzero; exact .zero
      · refine .digits ?_ (by simpa using hzero) (by simp)
        rw [Nat.isDigit_digitChar]
        exact decide_eq_true hn
    · have hle : 10 ≤ n := Nat.le_of_not_lt hn
      have hlast : (n % 10).digitChar.isDigit = true := by
        rw [Nat.isDigit_digitChar]
        exact decide_eq_true (Nat.mod_lt _ (by decide))
      rw [Nat.toDigits_of_base_le (by decide) hle]
      have hfront := ih (n / 10) (by omega)
      cases hds : Nat.toDigits 10 (n / 10) with
      | nil => exact absurd hds Nat.toDigits_ne_nil
      | cons d ds =>
        rw [hds] at hfront
        have hall : ∀ c ∈ ds, c.isDigit = true := fun c hc =>
          isDigit_toDigits (n / 10) c (by rw [hds]; exact List.mem_cons_of_mem d hc)
        cases hfront with
        | zero =>
          -- a number that is not zero does not begin with a zero
          have hzero := digitsValue_toDigits (n / 10)
          rw [hds] at hzero
          exact absurd hzero (by simp [digitsValue]; omega)
        | digits hd hne _ =>
          exact .digits hd hne fun c hc => (List.mem_append.mp hc).elim (hall c)
            fun hc => List.mem_singleton.mp hc ▸ hlast

/-- A whole part alone is a numeral. -/
theorem IsWhole.isNumeral {cs : List Char} (h : IsWhole cs) : IsNumeral cs := by
  simpa using IsNumeral.parts .none h .none .none

theorem wellFormed_ofNat (n : Nat) : WellFormed (ofNat n) := .number (isWhole_toDigits n).isNumeral

theorem natBelow?_ofNat {limit n : Nat} (hn : n < limit) : natBelow? limit (ofNat n) = some n := by
  have hall : (Nat.toDigits 10 n).all Char.isDigit = true := List.all_eq_true.mpr (isDigit_toDigits n)
  simp [natBelow?, ofNat, hall, hn]

@[simp] theorem word64?_ofWord64 (n : UInt64) : word64? (ofWord64 n) = some n := by
  have hn : n.toNat < 1 <<< 64 := n.toNat_lt
  rw [word64?, ofWord64, natBelow?_ofNat hn, Option.map_some, UInt64.ofNat_toNat]

@[simp] theorem word16?_ofWord16 (n : UInt16) : word16? (ofWord16 n) = some n := by
  have hn : n.toNat < 1 <<< 16 := n.toNat_lt
  rw [word16?, ofWord16, natBelow?_ofNat hn, Option.map_some, UInt16.ofNat_toNat]

@[simp] theorem bool?_bool (b : Bool) : bool? (.bool b) = some b := rfl

/-! ## Composites -/

section Composites

variable {read : Json → Option α} {write : α → Json}

/-- A value that may be absent is read back if null is no value. -/
theorem nullable_ofOption (hnull : read .null = none) {o : Option α} (h : ∀ a ∈ o, read (write a) = some a) :
    nullable read (ofOption write o) = some o := by
  cases o with
  | none => rfl
  | some a =>
    have hread : read (write a) = some a := h a rfl
    show nullable read (write a) = _
    unfold nullable
    split
    · rename_i heq
      rw [heq, hnull] at hread
      cases hread
    · rw [hread]
      rfl

theorem list?_map {as : List α} (h : ∀ a ∈ as, read (write a) = some a) :
    list? read (.array (as.map write)) = some as := by
  show (as.map write).mapM read = some as
  induction as with
  | nil => rfl
  | cons a as ih =>
    obtain ⟨ha, has⟩ := List.forall_mem_cons.mp h
    simp [List.mapM_cons, ha, ih has]

theorem pair?_array {first : Json → Option α} {second : Json → Option β} {i j : Json} {a : α} {b : β}
    (ha : first i = some a) (hb : second j = some b) : pair? first second (.array [i, j]) = some (a, b) := by
  simp [pair?, ha, hb]

theorem wellFormed_ofOption {o : Option α} (h : ∀ a ∈ o, WellFormed (write a)) : WellFormed (ofOption write o) := by
  cases o with
  | none => exact .null
  | some a => exact h a rfl

theorem wellFormed_map {as : List α} (h : ∀ a ∈ as, WellFormed (write a)) : WellFormed (.array (as.map write)) :=
  .array (List.forall_mem_map.mpr h)

theorem wellFormed_pair {i j : Json} (hi : WellFormed i) (hj : WellFormed j) : WellFormed (.array [i, j]) :=
  .array (by simp [hi, hj])

end Composites

end CloudFleet.Json
