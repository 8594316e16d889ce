import CloudFleet.Json.Printer
import CloudFleet.Json.Reader

/-!
# The grammar of JSON texts

`Spells p cs` says that the characters `cs` are a text of the phrase `p` by the grammar of RFC 8259: a value, or what
is left of an array or of an object behind its opening bracket. Between the parts of a text any gaps may stand.

The reader accepts every such text and gives back its value (`read?_of_spells`); what makes the induction go through is
that no text of a value is the beginning of a longer one that the reader would prefer, unless a numeral goes on
(`Ends`), and that a budget of twice the length is never used up. A value whose numerals and strings are well formed is
spelled by the printer on one line as well as on many, so that both are read back (`read?_compact`, `read?_pretty`).
-/

set_option autoImplicit false

namespace CloudFleet.Json

/-! ## Numerals and strings -/

/-- The sign of a numeral. -/
inductive IsSign : List Char → Prop
  | none : IsSign []
  | minus : IsSign ['-']

/-- The whole part of a numeral: a zero, or digits of which the first is none. -/
inductive IsWhole : List Char → Prop
  | zero : IsWhole ['0']
  | digits {d : Char} {ds : List Char} (hd : d.isDigit = true) (hne : d ≠ '0')
      (hds : ∀ c ∈ ds, c.isDigit = true) : IsWhole (d :: ds)

/-- The fraction of a numeral. -/
inductive IsFraction : List Char → Prop
  | none : IsFraction []
  | digits {ds : List Char} (hne : ds ≠ []) (hds : ∀ c ∈ ds, c.isDigit = true) : IsFraction ('.' :: ds)

/-- The exponent of a numeral. -/
inductive IsExponent : List Char → Prop
  | none : IsExponent []
  | digits {e : Char} {ds : List Char} (he : e = 'e' ∨ e = 'E') (hne : ds ≠ [])
      (hds : ∀ c ∈ ds, c.isDigit = true) : IsExponent (e :: ds)
  | signed {e sign : Char} {ds : List Char} (he : e = 'e' ∨ e = 'E') (hsign : sign = '+' ∨ sign = '-')
      (hne : ds ≠ []) (hds : ∀ c ∈ ds, c.isDigit = true) : IsExponent (e :: sign :: ds)

/-- A numeral: a sign, a whole part, a fraction and an exponent. -/
inductive IsNumeral : List Char → Prop
  | parts {sign whole fraction exponent : List Char} (hs : IsSign sign) (hw : IsWhole whole)
      (hf : IsFraction fraction) (he : IsExponent exponent) : IsNumeral (sign ++ whole ++ fraction ++ exponent)

/-- What may stand between the quotes of a string. -/
inductive IsWritten : List Char → Prop
  | nil : IsWritten []
  | plain {c : Char} {cs : List Char} (hquote : c ≠ '"') (hslash : c ≠ '\\') (hcontrol : 32 ≤ c.toNat)
      (h : IsWritten cs) : IsWritten (c :: cs)
  | escape {c : Char} {cs : List Char} (hc : (escaped? c).isSome = true) (h : IsWritten cs) :
      IsWritten ('\\' :: c :: cs)
  | unit {a b c d : Char} {cs : List Char} (hu : (unit? a b c d).isSome = true) (h : IsWritten cs) :
      IsWritten ('\\' :: 'u' :: a :: b :: c :: d :: cs)

/-- What stands between the parts of a text. -/
def IsGap (cs : List Char) : Prop := ∀ c ∈ cs, isGap c = true

/-- Whether a numeral cannot go on with these characters. -/
def Ends (cs : List Char) : Prop := ∀ c ∈ cs.head?, c.isDigit = false ∧ c ≠ '.' ∧ c ≠ 'e' ∧ c ≠ 'E'

/-! ## Values -/

/-- What a text spells: a value, or the items or members up to the bracket that closes them. -/
inductive Phrase
  | value (j : Json)
  | items (js : List Json)
  | members (ms : List (List Char × Json))

/-- The characters are a text of the phrase. -/
inductive Spells : Phrase → List Char → Prop
  | nullWord : Spells (.value .null) ['n', 'u', 'l', 'l']
  | trueWord : Spells (.value (.bool true)) ['t', 'r', 'u', 'e']
  | falseWord : Spells (.value (.bool false)) ['f', 'a', 'l', 's', 'e']
  | number {n : List Char} (hn : IsNumeral n) : Spells (.value (.number n)) n
  | string {w : List Char} (hw : IsWritten w) : Spells (.value (.string w)) ('"' :: (w ++ ['"']))
  | emptyArray {g : List Char} (hg : IsGap g) : Spells (.value (.array [])) ('[' :: (g ++ [']']))
  | array {js : List Json} {g cs : List Char} (hg : IsGap g) (h : Spells (.items js) cs) :
      Spells (.value (.array js)) ('[' :: (g ++ cs))
  | emptyObject {g : List Char} (hg : IsGap g) : Spells (.value (.object [])) ('\x7b' :: (g ++ ['\x7d']))
  | object {ms : List (List Char × Json)} {g cs : List Char} (hg : IsGap g) (h : Spells (.members ms) cs) :
      Spells (.value (.object ms)) ('\x7b' :: (g ++ cs))
  | lastItem {j : Json} {cs g : List Char} (h : Spells (.value j) cs) (hg : IsGap g) :
      Spells (.items [j]) (cs ++ (g ++ [']']))
  | item {j : Json} {js : List Json} {cs g g' ds : List Char} (h : Spells (.value j) cs) (hg : IsGap g)
      (hg' : IsGap g') (hs : Spells (.items js) ds) : Spells (.items (j :: js)) (cs ++ (g ++ ',' :: (g' ++ ds)))
  | lastMember {k : List Char} {j : Json} {g₁ g₂ cs g : List Char} (hk : IsWritten k) (h₁ : IsGap g₁)
      (h₂ : IsGap g₂) (h : Spells (.value j) cs) (hg : IsGap g) :
      Spells (.members [(k, j)]) ('"' :: (k ++ '"' :: (g₁ ++ ':' :: (g₂ ++ (cs ++ (g ++ ['\x7d']))))))
  | member {k : List Char} {j : Json} {ms : List (List Char × Json)} {g₁ g₂ cs g g' ds : List Char}
      (hk : IsWritten k) (h₁ : IsGap g₁) (h₂ : IsGap g₂) (h : Spells (.value j) cs) (hg : IsGap g)
      (hg' : IsGap g') (hs : Spells (.members ms) ds) :
      Spells (.members ((k, j) :: ms))
        ('"' :: (k ++ '"' :: (g₁ ++ ':' :: (g₂ ++ (cs ++ (g ++ ',' :: (g' ++ ds)))))))

/-! ## Reading numerals and strings -/

section Scanning

variable {cs rest : List Char}

/-- A run of digits is scanned up to what is none. -/
theorem scanDigits_append {ds : List Char} (hne : ds ≠ []) (hds : ∀ c ∈ ds, c.isDigit = true)
    (hrest : ∀ c ∈ rest.head?, c.isDigit = false) : scanDigits (ds ++ rest) = some (ds, rest) := by
  have htake : (ds ++ rest).takeWhile Char.isDigit = ds := by
    rw [List.takeWhile_append_of_pos hds]
    cases rest with
    | nil => simp
    | cons c rest => rw [List.takeWhile_cons_of_neg (by simp [hrest c rfl]), List.append_nil]
  have hdrop : (ds ++ rest).dropWhile Char.isDigit = rest := by
    rw [List.dropWhile_append_of_pos hds]
    cases rest with
    | nil => rfl
    | cons c rest => rw [List.dropWhile_cons_of_neg (by simp [hrest c rfl])]
  unfold scanDigits
  rw [htake, hdrop]
  obtain ⟨d, ds, rfl⟩ := List.exists_cons_of_ne_nil hne
  rfl

theorem scanWhole_append (h : IsWhole cs) (hrest : ∀ c ∈ rest.head?, c.isDigit = false) :
    scanWhole (cs ++ rest) = some (cs, rest) := by
  cases h with
  | zero =>
    cases rest with
    | nil => rfl
    | cons c rest => simp [scanWhole, hrest c rfl]
  | digits hd hne hds =>
    rename_i d ds
    have hall : ∀ c ∈ d :: ds, c.isDigit = true := List.forall_mem_cons.mpr ⟨hd, hds⟩
    have heq : scanWhole (d :: ds ++ rest) = scanDigits (d :: ds ++ rest) := by
      simp [scanWhole, hne]
    rw [heq, scanDigits_append (List.cons_ne_nil d ds) hall hrest]

theorem scanFraction_append (h : IsFraction cs) (hrest : ∀ c ∈ rest.head?, c.isDigit = false ∧ c ≠ '.') :
    scanFraction (cs ++ rest) = some (cs, rest) := by
  cases h with
  | none =>
    unfold scanFraction
    split
    · exact absurd rfl (hrest '.' (by simp_all)).2
    · rfl
  | digits hne hds =>
    simp [scanFraction, scanDigits_append hne hds fun c hc => (hrest c hc).1]

theorem scanExponent_append (h : IsExponent cs) (hrest : Ends rest) :
    scanExponent (cs ++ rest) = some (cs, rest) := by
  have hnone : ∀ c ∈ rest.head?, c.isDigit = false := fun c hc => (hrest c hc).1
  cases h with
  | none =>
    cases rest with
    | nil => rfl
    | cons c rest =>
      obtain ⟨-, -, he, hE⟩ := hrest c rfl
      simp [scanExponent, he, hE]
  | digits he hne hds =>
    rename_i e ds
    have hscan := scanDigits_append hne hds hnone
    obtain ⟨d, ds, rfl⟩ := List.exists_cons_of_ne_nil hne
    -- a digit is no sign
    have hd : ¬ (d = '+' ∨ d = '-') := by
      have hdigit := hds d List.mem_cons_self
      rintro (rfl | rfl) <;> exact absurd hdigit (by decide)
    simp only [List.cons_append] at hscan
    simp [scanExponent, he, hd, hscan]
  | signed he hsign hne hds =>
    simp [scanExponent, he, hsign, scanDigits_append hne hds hnone]

/-- The first character behind a fraction or an exponent is no digit. -/
theorem not_isDigit_exponent (h : IsExponent cs) (hrest : Ends rest) :
    ∀ c ∈ (cs ++ rest).head?, c.isDigit = false ∧ c ≠ '.' := by
  have hmark : ∀ e : Char, e = 'e' ∨ e = 'E' → e.isDigit = false ∧ e ≠ '.' := by
    rintro e (rfl | rfl) <;> exact ⟨by decide, by decide⟩
  cases h with
  | none => exact fun c hc => ⟨(hrest c hc).1, (hrest c hc).2.1⟩
  | digits he _ _ => exact fun c hc => Option.mem_some.mp hc ▸ hmark _ he
  | signed he _ _ _ => exact fun c hc => Option.mem_some.mp hc ▸ hmark _ he

theorem not_isDigit_fraction {fraction exponent : List Char} (hf : IsFraction fraction) (he : IsExponent exponent)
    (hrest : Ends rest) : ∀ c ∈ (fraction ++ (exponent ++ rest)).head?, c.isDigit = false := by
  cases hf with
  | none => exact fun c hc => (not_isDigit_exponent he hrest c hc).1
  | digits _ _ => exact fun c hc => Option.mem_some.mp hc ▸ (by decide)

/-- The first character of a whole part is a digit. -/
theorem IsWhole.exists_cons (h : IsWhole cs) : ∃ c ds, cs = c :: ds ∧ c.isDigit = true := by
  cases h with
  | zero => exact ⟨'0', [], rfl, by decide⟩
  | digits hd _ _ => exact ⟨_, _, rfl, hd⟩

/-- A numeral is scanned up to what it does not go on with. -/
theorem scanNumber_append (h : IsNumeral cs) (hrest : Ends rest) : scanNumber (cs ++ rest) = some (cs, rest) := by
  obtain ⟨hs, hw, hf, he⟩ := h
  rename_i sign whole fraction exponent
  have hwhole := scanWhole_append hw (not_isDigit_fraction hf he hrest)
  have hfraction := scanFraction_append hf (not_isDigit_exponent he hrest)
  have hexponent := scanExponent_append he hrest
  obtain ⟨d, ds, rfl, hd⟩ := hw.exists_cons
  have hminus : d ≠ '-' := by rintro rfl; exact absurd hd (by decide)
  cases hs with
  | none =>
    simp only [List.nil_append, List.append_assoc, List.cons_append] at hwhole hfraction ⊢
    unfold scanNumber
    split
    rename_i heq
    split at heq
    · simp_all
    · cases heq
      simp [hwhole, hfraction, hexponent]
  | minus =>
    simp only [List.nil_append, List.append_assoc, List.cons_append] at hwhole hfraction ⊢
    simp [scanNumber, hwhole, hfraction, hexponent]

/-- What is written in a string is scanned up to its closing quote. -/
theorem scanString_append (h : IsWritten cs) (rest : List Char) :
    scanString (cs ++ '"' :: rest) = some (cs, rest) := by
  induction h with
  | nil => simp [scanString]
  | plain hquote hslash hcontrol _ ih =>
    rename_i c cs _
    have hnot : ¬ (c.toNat < 32 ∨ c = '\\') := by simp only [hslash, or_false]; omega
    rw [List.cons_append, scanString.eq_def]
    split
    · rename_i heq; cases heq
    · rename_i heq; exact absurd (List.cons.inj heq).1 hquote
    · rename_i heq; exact absurd (List.cons.inj heq).1 hslash
    · rename_i heq; exact absurd (List.cons.inj heq).1 hslash
    · rename_i heq
      obtain ⟨rfl, rfl⟩ := List.cons.inj heq
      rw [if_neg hnot, ih]
      rfl
  | escape hc _ ih =>
    rename_i c cs _
    have hu : c ≠ 'u' := by rintro rfl; exact absurd hc (by decide)
    simp [scanString, hu, hc, ih]
  | unit hu _ ih => simp [scanString, hu, ih]

theorem skipGap_append {g : List Char} (hg : IsGap g) {c : Char} (hc : isGap c = false) (rest : List Char) :
    skipGap (g ++ c :: rest) = c :: rest := by
  rw [skipGap, List.dropWhile_append_of_pos hg, List.dropWhile_cons_of_neg (by simp [hc])]

theorem skipGap_of_isGap {g : List Char} (hg : IsGap g) : skipGap g = [] := by
  rw [skipGap, ← List.append_nil g, List.dropWhile_append_of_pos hg]
  rfl

end Scanning

/-! ## Reading values -/

/-- The first character of a numeral is a digit or a minus sign. -/
theorem IsNumeral.exists_cons {cs : List Char} (h : IsNumeral cs) :
    ∃ c ds, cs = c :: ds ∧ (c.isDigit = true ∨ c = '-') := by
  obtain ⟨hs, hw, -, -⟩ := h
  obtain ⟨d, ds, rfl, hd⟩ := hw.exists_cons
  cases hs with
  | none => exact ⟨d, _, rfl, .inl hd⟩
  | minus => exact ⟨'-', _, rfl, .inr rfl⟩

/-- What begins a numeral is none of the other marks. -/
theorem ne_of_isDigit_or {c : Char} (hc : c.isDigit = true ∨ c = '-') {d : Char}
    (hd : d.isDigit = false ∧ d ≠ '-') : c ≠ d := by
  rintro rfl
  rcases hc with hc | hc
  · rw [hd.1] at hc; cases hc
  · exact hd.2 hc

theorem scanValue_of_isNumeral {cs rest : List Char} (h : IsNumeral cs) (hrest : Ends rest) (budget : Nat) :
    scanValue (budget + 1) (cs ++ rest) = some (.number cs, rest) := by
  have hscan := scanNumber_append h hrest
  obtain ⟨c, ds, rfl, hc⟩ := h.exists_cons
  have hne := @ne_of_isDigit_or c hc
  rw [List.cons_append] at hscan ⊢
  simp only [scanValue]
  split
  case h_7 => simp [hscan]
  all_goals
    rename_i heq
    exact absurd (List.cons.inj heq).1 (hne (by decide))

/-- The first character of a phrase is no gap, and not the bracket that would close an empty one. -/
theorem Spells.exists_cons {p : Phrase} {cs : List Char} (h : Spells p cs) :
    ∃ c ds, cs = c :: ds ∧ isGap c = false ∧ c ≠ ']' ∧ c ≠ '\x7d' := by
  induction h with
  | number hn =>
    obtain ⟨c, ds, rfl, hc⟩ := hn.exists_cons
    have hne := @ne_of_isDigit_or c hc
    refine ⟨c, ds, rfl, ?_, hne (by decide), hne (by decide)⟩
    simp [isGap, hne (d := ' ') (by decide), hne (d := '\t') (by decide), hne (d := '\n') (by decide),
      hne (d := '\r') (by decide)]
  | lastItem _ _ ih | item _ _ _ _ ih _ =>
    obtain ⟨c, ds, rfl, hc⟩ := ih
    exact ⟨c, _, rfl, hc⟩
  | _ => exact ⟨_, _, rfl, by decide⟩

/-- A numeral goes on behind no gap that is not empty. -/
theorem Ends.gap_append {g cs : List Char} (hg : IsGap g) (hcs : Ends cs) : Ends (g ++ cs) := by
  cases g with
  | nil => exact hcs
  | cons d g =>
    have hd : isGap d = true := hg d List.mem_cons_self
    simp only [isGap, Bool.or_eq_true, beq_iff_eq] at hd
    intro c hc
    obtain rfl : d = c := Option.some.inj hc
    rcases hd with ((rfl | rfl) | rfl) | rfl <;> decide

section Steps

variable {budget : Nat} {g g' cs ds rest : List Char}

theorem scanValue_array {js : List Json} (hg : IsGap g) (hs : Spells (.items js) cs)
    (hread : scanItems budget (cs ++ rest) = some (js, rest)) :
    scanValue (budget + 1) ('[' :: (g ++ cs) ++ rest) = some (.array js, rest) := by
  obtain ⟨c, ds, rfl, hgap, hne, -⟩ := hs.exists_cons
  rw [List.cons_append] at hread
  simp only [List.cons_append, List.append_assoc, scanValue, skipGap_append hg hgap]
  split
  · rename_i heq
    exact absurd (List.cons.inj heq).1 hne
  · rw [hread]
    rfl

theorem scanValue_object {ms : List (List Char × Json)} (hg : IsGap g) (hs : Spells (.members ms) cs)
    (hread : scanMembers budget (cs ++ rest) = some (ms, rest)) :
    scanValue (budget + 1) ('\x7b' :: (g ++ cs) ++ rest) = some (.object ms, rest) := by
  obtain ⟨c, ds, rfl, hgap, -, hne⟩ := hs.exists_cons
  rw [List.cons_append] at hread
  simp only [List.cons_append, List.append_assoc, scanValue, skipGap_append hg hgap]
  split
  · rename_i heq
    exact absurd (List.cons.inj heq).1 hne
  · rw [hread]
    rfl

theorem scanItems_last {j : Json} (hg : IsGap g)
    (hread : scanValue budget (cs ++ (g ++ ']' :: rest)) = some (j, g ++ ']' :: rest)) :
    scanItems (budget + 1) (cs ++ (g ++ [']']) ++ rest) = some ([j], rest) := by
  simp [scanItems, hread, skipGap_append hg (c := ']') (by decide)]

theorem scanItems_more {j : Json} {js : List Json} (hg : IsGap g) (hg' : IsGap g') (hs : Spells (.items js) ds)
    (hread : scanValue budget (cs ++ (g ++ ',' :: (g' ++ (ds ++ rest)))) = some (j, g ++ ',' :: (g' ++ (ds ++ rest))))
    (htail : scanItems budget (ds ++ rest) = some (js, rest)) :
    scanItems (budget + 1) (cs ++ (g ++ ',' :: (g' ++ ds)) ++ rest) = some (j :: js, rest) := by
  obtain ⟨d, ds, rfl, hgap, -, -⟩ := hs.exists_cons
  simp only [List.cons_append] at hread htail
  simp [scanItems, hread, htail, skipGap_append hg (c := ',') (by decide), skipGap_append hg' hgap]

variable {k g₁ g₂ : List Char} {j : Json} (hk : IsWritten k) (h₁ : IsGap g₁) (h₂ : IsGap g₂)
  (h : Spells (.value j) cs) (hg : IsGap g)
include hk h₁ h₂ h hg

theorem scanMembers_last (hread : scanValue budget (cs ++ (g ++ '\x7d' :: rest)) = some (j, g ++ '\x7d' :: rest)) :
    scanMembers (budget + 1) ('"' :: (k ++ '"' :: (g₁ ++ ':' :: (g₂ ++ (cs ++ (g ++ ['\x7d']))))) ++ rest)
      = some ([(k, j)], rest) := by
  obtain ⟨c, cs, rfl, hgap, -, -⟩ := h.exists_cons
  simp only [List.cons_append] at hread
  simp [scanMembers, scanString_append hk, hread, skipGap_append h₁ (c := ':') (by decide), skipGap_append h₂ hgap,
    skipGap_append hg (c := '\x7d') (by decide)]

theorem scanMembers_more {ms : List (List Char × Json)} (hg' : IsGap g') (hs : Spells (.members ms) ds)
    (hread : scanValue budget (cs ++ (g ++ ',' :: (g' ++ (ds ++ rest)))) = some (j, g ++ ',' :: (g' ++ (ds ++ rest))))
    (htail : scanMembers budget (ds ++ rest) = some (ms, rest)) :
    scanMembers (budget + 1) ('"' :: (k ++ '"' :: (g₁ ++ ':' :: (g₂ ++ (cs ++ (g ++ ',' :: (g' ++ ds)))))) ++ rest)
      = some ((k, j) :: ms, rest) := by
  obtain ⟨c, cs, rfl, hgap, -, -⟩ := h.exists_cons
  obtain ⟨d, ds, rfl, hgap', -, -⟩ := hs.exists_cons
  simp only [List.cons_append] at hread htail
  simp [scanMembers, scanString_append hk, hread, htail, skipGap_append h₁ (c := ':') (by decide),
    skipGap_append h₂ hgap, skipGap_append hg (c := ',') (by decide), skipGap_append hg' hgap']

end Steps

/-- The reader takes the characters in front of `rest` for the phrase. -/
def Reads (budget : Nat) (cs rest : List Char) : Phrase → Prop
  | .value j => Ends rest → scanValue budget (cs ++ rest) = some (j, rest)
  | .items js => scanItems budget (cs ++ rest) = some (js, rest)
  | .members ms => scanMembers budget (cs ++ rest) = some (ms, rest)

/-- What stands behind a value in an array or object, a numeral does not go on with. -/
theorem Ends.mark {g : List Char} (hg : IsGap g) {c : Char} (hc : c.isDigit = false ∧ c ≠ '.' ∧ c ≠ 'e' ∧ c ≠ 'E')
    (rest : List Char) : Ends (g ++ c :: rest) := by
  refine .gap_append hg fun d hd => ?_
  obtain rfl : c = d := Option.some.inj hd
  exact hc

/-- **The reader takes every text of the grammar for what it spells.** -/
theorem Spells.reads {p : Phrase} {cs : List Char} (h : Spells p cs) :
    ∀ {budget : Nat}, 2 * cs.length ≤ budget → ∀ rest : List Char, Reads budget cs rest p := by
  induction h with
  | nullWord | trueWord | falseWord =>
    rintro (_ | budget) hb rest
    · simp at hb
    · exact fun _ => by simp [scanValue, scanWord]
  | number hn =>
    rintro (_ | budget) hb rest
    · obtain ⟨c, ds, rfl, -⟩ := hn.exists_cons
      simp at hb
    · exact fun hrest => scanValue_of_isNumeral hn hrest budget
  | string hw =>
    rintro (_ | budget) hb rest
    · simp at hb
    · exact fun _ => by simp [scanValue, scanString_append hw]
  | emptyArray hg =>
    rintro (_ | budget) hb rest
    · simp at hb
    · exact fun _ => by simp [scanValue, skipGap_append hg (c := ']') (by decide)]
  | emptyObject hg =>
    rintro (_ | budget) hb rest
    · simp at hb
    · exact fun _ => by simp [scanValue, skipGap_append hg (c := '\x7d') (by decide)]
  | array hg hs ih =>
    rintro (_ | budget) hb rest
    · simp at hb
    · simp only [List.length_cons, List.length_append] at hb
      exact fun _ => scanValue_array hg hs (ih (by omega) rest)
  | object hg hs ih =>
    rintro (_ | budget) hb rest
    · simp at hb
    · simp only [List.length_cons, List.length_append] at hb
      exact fun _ => scanValue_object hg hs (ih (by omega) rest)
  | lastItem h hg ih =>
    rintro (_ | budget) hb rest
    · simp at hb
    · simp only [List.length_append, List.length_singleton] at hb
      exact scanItems_last hg (ih (by omega) _ (.mark hg (by decide) rest))
  | item h hg hg' hs ih ihs =>
    rintro (_ | budget) hb rest
    · simp at hb
    · simp only [List.length_append, List.length_cons] at hb
      exact scanItems_more hg hg' hs (ih (by omega) _ (.mark hg (by decide) _)) (ihs (by omega) rest)
  | lastMember hk h₁ h₂ h hg ih =>
    rintro (_ | budget) hb rest
    · simp at hb
    · simp only [List.length_append, List.length_cons] at hb
      exact scanMembers_last hk h₁ h₂ h hg (ih (by omega) _ (.mark hg (by decide) rest))
  | member hk h₁ h₂ h hg hg' hs ih ihs =>
    rintro (_ | budget) hb rest
    · simp at hb
    · simp only [List.length_append, List.length_cons] at hb
      exact scanMembers_more hk h₁ h₂ h hg hg' hs (ih (by omega) _ (.mark hg (by decide) _)) (ihs (by omega) rest)

/-- The text spells the value, with gaps around it. -/
def IsText (s : String) (j : Json) : Prop :=
  ∃ g cs g' : List Char, IsGap g ∧ Spells (.value j) cs ∧ IsGap g' ∧ s.toList = g ++ (cs ++ g')

/-- A text is read as the value that it spells. -/
theorem read?_of_isText {s : String} {j : Json} (h : IsText s j) : read? s = some j := by
  obtain ⟨g, cs, g', hg, hspells, hg', hs⟩ := h
  have hnil : Ends [] := by simp [Ends]
  have hends : Ends g' := by simpa using Ends.gap_append hg' hnil
  have hread : scanValue (2 * (g ++ (cs ++ g')).length + 2) (cs ++ g') = some (j, g') :=
    hspells.reads (by simp only [List.length_append]; omega) g' hends
  obtain ⟨c, cs, rfl, hgap, -⟩ := hspells.exists_cons
  rw [read?, hs, readChars?]
  rw [List.cons_append] at hread ⊢
  rw [skipGap_append hg hgap, hread]
  simp [skipGap_of_isGap hg']

/-! ## Printed values -/

/-- A value with numerals and strings as the grammar has them. -/
inductive WellFormed : Json → Prop
  | null : WellFormed .null
  | bool (b : Bool) : WellFormed (.bool b)
  | number {n : List Char} (hn : IsNumeral n) : WellFormed (.number n)
  | string {w : List Char} (hw : IsWritten w) : WellFormed (.string w)
  | array {js : List Json} (h : ∀ j ∈ js, WellFormed j) : WellFormed (.array js)
  | object {ms : List (List Char × Json)} (hk : ∀ m ∈ ms, IsWritten m.1) (h : ∀ m ∈ ms, WellFormed m.2) :
      WellFormed (.object ms)

theorem isGap_nil : IsGap [] := fun _ hc => nomatch hc

/-- Items with nothing but commas between them. -/
theorem spells_compactItems {js : List Json} (hne : js ≠ [])
    (h : ∀ j ∈ js, Spells (.value j) (compactChars j)) : Spells (.items js) (compactItems js ++ [']']) := by
  induction js with
  | nil => exact absurd rfl hne
  | cons j js ih =>
    obtain ⟨hj, hjs⟩ := List.forall_mem_cons.mp h
    cases js with
    | nil => simpa [compactItems] using Spells.lastItem hj isGap_nil
    | cons j' js =>
      simpa [compactItems] using Spells.item hj isGap_nil isGap_nil (ih (List.cons_ne_nil j' js) hjs)

/-- Members with nothing but commas between them. -/
theorem spells_compactMembers {ms : List (List Char × Json)} (hne : ms ≠ []) (hk : ∀ m ∈ ms, IsWritten m.1)
    (h : ∀ m ∈ ms, Spells (.value m.2) (compactChars m.2)) :
    Spells (.members ms) (compactMembers ms ++ ['\x7d']) := by
  induction ms with
  | nil => exact absurd rfl hne
  | cons m ms ih =>
    obtain ⟨hkm, hkms⟩ := List.forall_mem_cons.mp hk
    obtain ⟨hm, hms⟩ := List.forall_mem_cons.mp h
    cases ms with
    | nil => simpa [compactMembers] using Spells.lastMember hkm isGap_nil isGap_nil hm isGap_nil
    | cons m' ms =>
      simpa [compactMembers] using
        Spells.member hkm isGap_nil isGap_nil hm isGap_nil isGap_nil (ih (List.cons_ne_nil m' ms) hkms hms)

/-- A value on one line is a text of it. -/
theorem WellFormed.spells_compactChars {j : Json} (h : WellFormed j) : Spells (.value j) (compactChars j) := by
  induction h with
  | null => simpa [compactChars] using Spells.nullWord
  | bool b =>
    cases b
    · simpa [compactChars] using Spells.falseWord
    · simpa [compactChars] using Spells.trueWord
  | number hn => simpa [compactChars] using Spells.number hn
  | string hw => simpa [compactChars] using Spells.string hw
  | @array js _ ih =>
    by_cases hne : js = []
    · subst hne
      simpa [compactChars, compactItems] using Spells.emptyArray isGap_nil
    · simpa [compactChars] using Spells.array isGap_nil (spells_compactItems hne ih)
  | @object ms hk _ ih =>
    by_cases hne : ms = []
    · subst hne
      simpa [compactChars, compactMembers] using Spells.emptyObject isGap_nil
    · simpa [compactChars] using Spells.object isGap_nil (spells_compactMembers hne hk ih)

/-- The start of a line is a gap. -/
theorem isGap_newLine (depth : Nat) : IsGap (newLine depth) := by
  intro c hc
  rcases List.mem_cons.mp hc with rfl | hc
  · decide
  · rw [List.eq_of_mem_replicate hc]
    decide

theorem isGap_blank : IsGap [' '] := by simp [IsGap, isGap]

section Pretty

variable (depth : Nat)

/-- Items on lines of their own: the gap before the first one, and the rest of the array. -/
theorem spells_prettyItems {js : List Json} (hne : js ≠ [])
    (h : ∀ j ∈ js, ∀ d, Spells (.value j) (prettyChars d j)) {g : List Char} (hg : IsGap g) :
    ∃ cs, prettyItems depth js ++ (g ++ [']']) = newLine depth ++ cs ∧ Spells (.items js) cs := by
  induction js with
  | nil => exact absurd rfl hne
  | cons j js ih =>
    obtain ⟨hj, hjs⟩ := List.forall_mem_cons.mp h
    cases js with
    | nil => exact ⟨_, by simp [prettyItems], Spells.lastItem (hj depth) hg⟩
    | cons j' js =>
      obtain ⟨cs, hcs, hspells⟩ := ih (List.cons_ne_nil j' js) hjs
      exact ⟨_, by simp [prettyItems, hcs], Spells.item (hj depth) isGap_nil (isGap_newLine depth) hspells⟩

/-- Members on lines of their own: the gap before the first one, and the rest of the object. -/
theorem spells_prettyMembers {ms : List (List Char × Json)} (hne : ms ≠ []) (hk : ∀ m ∈ ms, IsWritten m.1)
    (h : ∀ m ∈ ms, ∀ d, Spells (.value m.2) (prettyChars d m.2)) {g : List Char} (hg : IsGap g) :
    ∃ cs, prettyMembers depth ms ++ (g ++ ['\x7d']) = newLine depth ++ cs ∧ Spells (.members ms) cs := by
  induction ms with
  | nil => exact absurd rfl hne
  | cons m ms ih =>
    obtain ⟨hkm, hkms⟩ := List.forall_mem_cons.mp hk
    obtain ⟨hm, hms⟩ := List.forall_mem_cons.mp h
    cases ms with
    | nil => exact ⟨_, by simp [prettyMembers], Spells.lastMember hkm isGap_nil isGap_blank (hm depth) hg⟩
    | cons m' ms =>
      obtain ⟨cs, hcs, hspells⟩ := ih (List.cons_ne_nil m' ms) hkms hms
      exact ⟨_, by simp [prettyMembers, hcs],
        Spells.member hkm isGap_nil isGap_blank (hm depth) isGap_nil (isGap_newLine depth) hspells⟩

theorem prettyChars_array {js : List Json} (hne : js ≠ []) : prettyChars depth (.array js)
    = '[' :: (prettyItems (depth + 1) js ++ (newLine depth ++ [']'])) := by
  rw [prettyChars.eq_3 depth js hne]
  simp

theorem prettyChars_object {ms : List (List Char × Json)} (hne : ms ≠ []) : prettyChars depth (.object ms)
    = '\x7b' :: (prettyMembers (depth + 1) ms ++ (newLine depth ++ ['\x7d'])) := by
  rw [prettyChars.eq_4 depth ms hne]
  simp

/-- A value over several lines is a text of it, at every depth. -/
theorem WellFormed.spells_prettyChars {j : Json} (h : WellFormed j) (depth : Nat) :
    Spells (.value j) (prettyChars depth j) := by
  induction h generalizing depth with
  | null => simpa [prettyChars] using Spells.nullWord
  | bool b =>
    cases b
    · simpa [prettyChars] using Spells.falseWord
    · simpa [prettyChars] using Spells.trueWord
  | number hn => simpa [prettyChars] using Spells.number hn
  | string hw => simpa [prettyChars] using Spells.string hw
  | @array js _ ih =>
    by_cases hne : js = []
    · subst hne
      simpa [prettyChars] using Spells.emptyArray isGap_nil
    · obtain ⟨cs, hcs, hspells⟩ := spells_prettyItems (depth + 1) hne ih (isGap_newLine depth)
      rw [prettyChars_array depth hne, hcs]
      exact Spells.array (isGap_newLine (depth + 1)) hspells
  | @object ms hk _ ih =>
    by_cases hne : ms = []
    · subst hne
      simpa [prettyChars] using Spells.emptyObject isGap_nil
    · obtain ⟨cs, hcs, hspells⟩ := spells_prettyMembers (depth + 1) hne hk ih (isGap_newLine depth)
      rw [prettyChars_object depth hne, hcs]
      exact Spells.object (isGap_newLine (depth + 1)) hspells

end Pretty

section Printing

variable {j : Json} (h : WellFormed j)
include h

theorem WellFormed.isText_compact : IsText j.compact j :=
  ⟨[], compactChars j, [], isGap_nil, h.spells_compactChars, isGap_nil, by simp [compact]⟩

theorem WellFormed.isText_pretty : IsText j.pretty j :=
  ⟨[], prettyChars 0 j, [], isGap_nil, h.spells_prettyChars 0, isGap_nil, by simp [pretty]⟩

/-- **What is printed, on one line or on many, is read back.** -/
theorem WellFormed.read?_print {text : String} (htext : text ∈ [j.compact, j.pretty]) : read? text = some j := by
  rcases List.mem_cons.mp htext with rfl | htext
  · exact read?_of_isText h.isText_compact
  · exact List.mem_singleton.mp htext ▸ read?_of_isText h.isText_pretty

end Printing

end CloudFleet.Json
