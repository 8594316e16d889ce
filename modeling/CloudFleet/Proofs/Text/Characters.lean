import CloudFleet.Decimal.Text
import CloudFleet.Time.Instant
import Mathlib.Data.List.Basic

/-!
# The characters of a text

A character of a list of words is one of a word or of what stands between the words (`Text.mem_intercalate_iff`). The
texts of whole numbers, of instants and of floats are made of figures (`Figures`): digits, signs, points, colons, blanks
and the letters of what is no finite number. So they hold no character that has a meaning to a shell or ends a line.
-/

set_option autoImplicit false

namespace CloudFleet

/-! ## Lists of words -/

/-- A character that does not part the words is one of a word. -/
theorem Text.mem_intercalate_iff {c : Char} {sep : String} (hsep : c ∉ sep.toList) (words : List String) :
    c ∈ (sep.intercalate words).toList ↔ ∃ w ∈ words, c ∈ w.toList := by
  induction words with
  | nil => simp
  | cons w words ih =>
    cases words with
    | nil => simp
    | cons v words =>
      rw [String.intercalate_cons_cons, String.toList_append, String.toList_append, List.mem_append,
        List.mem_append, ih]
      simp [hsep]

/-! ## Figures -/

/-- Whether a character stands in the text of a number or of an instant. -/
def isFigure (c : Char) : Bool := c.isDigit || "+-.: NaNinf".toList.contains c

/-- Whether a text has only characters of numbers and instants. -/
def Figures (s : String) : Prop := ∀ c ∈ s.toList, isFigure c = true

instance (s : String) : Decidable (Figures s) := List.decidableBAll (fun c => isFigure c = true) s.toList

namespace Figures

variable {s t : String}

/-- What is no figure is not in the text. -/
theorem not_mem (h : Figures s) {c : Char} (hc : isFigure c = false) : c ∉ s.toList := by
  intro hm
  rw [h c hm] at hc
  cases hc

theorem append (hs : Figures s) (ht : Figures t) : Figures (s ++ t) := by
  intro c hc
  rw [String.toList_append] at hc
  exact (List.mem_append.mp hc).elim (hs c) (ht c)

theorem ofList {cs : List Char} (h : ∀ c ∈ cs, isFigure c = true) : Figures (.ofList cs) := by
  rwa [Figures, String.toList_ofList]

theorem digits (n : Nat) : ∀ c ∈ Nat.toDigits 10 n, isFigure c = true := by
  intro c hc
  rw [isFigure, Nat.isDigit_of_mem_toDigits (by decide) (by decide) hc, Bool.true_or]

theorem numeral (n : Nat) : Figures (toString n) := by
  rw [Figures, Nat.toString_eq_repr, Nat.toList_repr]
  exact digits n

theorem word (n : UInt64) : Figures (toString n) := numeral n.toNat

theorem zeros (n : Nat) : ∀ c ∈ List.replicate n '0', isFigure c = true := by
  intro c hc
  rw [List.eq_of_mem_replicate hc]
  decide

theorem padded (width n : Nat) : Figures (zeroPadded width n) := (ofList (zeros _)).append (numeral n)

theorem year (y : Int) : Figures (Date.yearText y) := by
  unfold Date.yearText
  split
  · exact padded _ _
  · refine append ?_ (padded _ _)
    split <;> decide

theorem stamp (t : Instant) : Figures t.stamp := by
  have hdash : Figures "-" := by decide
  have hcolon : Figures ":" := by decide
  have hblank : Figures " " := by decide
  have hdate : Figures t.date.text :=
    ((((year _).append hdash).append (padded _ _)).append hdash).append (padded _ _)
  have hclock : Figures (t.clockText ":") :=
    ((((padded _ _).append hcolon).append (padded _ _)).append hcolon).append (padded _ _)
  exact (hdate.append hblank).append hclock

theorem pointed {digits : List Char} (h : ∀ c ∈ digits, isFigure c = true) (places : Nat) :
    ∀ c ∈ Decimal.pointed digits places, isFigure c = true := by
  have hpadded : ∀ c ∈ List.replicate (places + 1 - digits.length) '0' ++ digits, isFigure c = true :=
    List.forall_mem_append.mpr ⟨zeros _, h⟩
  unfold Decimal.pointed
  refine List.forall_mem_append.mpr ⟨fun c hc => hpadded c (List.mem_of_mem_take hc), ?_⟩
  split
  · exact nofun
  · exact List.forall_mem_cons.mpr ⟨by decide, fun c hc => hpadded c (List.mem_of_mem_drop hc)⟩

theorem positional (d : Decimal) : ∀ c ∈ Decimal.Layout.plain.positionalText d, isFigure c = true := by
  unfold Decimal.Layout.positionalText
  dsimp only
  split
  · exact List.forall_mem_append.mpr ⟨List.forall_mem_append.mpr ⟨digits _, zeros _⟩, nofun⟩
  · exact pointed (digits _) _

theorem signed {cs : List Char} (h : ∀ c ∈ cs, isFigure c = true) (negative : Prop) [Decidable negative] :
    ∀ c ∈ (if negative then '-' :: cs else cs), isFigure c = true := by
  split
  · exact List.forall_mem_cons.mpr ⟨by decide, h⟩
  · exact h

/-- Floats in tables and on command lines. -/
theorem float (x : Float) : Figures (Decimal.Layout.plain.text x) := by
  unfold Decimal.Layout.text
  dsimp only
  split
  · decide
  · split
    · unfold Decimal.Layout.plain
      dsimp only
      split <;> decide
    · refine ofList (signed ?_ _)
      split
      · exact positional _
      · exact positional _

end Figures

end CloudFleet
